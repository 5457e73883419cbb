import NeuStack.ReceiveStream
import NeuStack.SendManager

/-! # Receivers that are bypassed

What the manager does on behalf of one connection hands nothing to the application of
another, and leaves its receive side alone (`Bypasses`).  The receive side of a connection is
bypassed by its own work too, the intake of data and of a FIN apart: by acknowledgements, the
timer, the calls of the application, a RST, and everything behind the peer's FIN.
-/
namespace NeuStack
variable {σ : Type}

/-- How far a connection has come with what its peer sends: it takes it from the SYN on. -/
inductive ReceivePhase
  | opening
  | taking
  | ended
  | closed
  deriving DecidableEq, Repr

def TCPState.receivePhase : TCPState → ReceivePhase
  | .listen | .synSent => .opening
  | .synRcvd | .established | .finWait1 | .finWait2 => .taking
  | .closeWait | .closing | .lastAck | .timeWait => .ended
  | .closed => .closed

namespace TCPState
variable {s : TCPState}

theorem receivePhase_afterFin (s : TCPState) : s.afterFin.receivePhase = s.receivePhase := by
  cases s <;> rfl

theorem eq_of_phase_closed (h : s.receivePhase = .closed) : s = .closed := by
  cases s <;> first | rfl | cases h

end TCPState

/-- **The receive side persists**, unless the connection is closed. -/
def TCB.Persists (t t' : TCB σ) : Prop :=
  t'.state = .closed ∨ (t'.state.receivePhase = t.state.receivePhase ∧
    (t'.state.receivePhase ≠ .ended →
      t'.toTCBReceive = t.toTCBReceive ∧ t'.options = t.options))

theorem TCB.Persists.refl (t : TCB σ) : t.Persists t := Or.inr ⟨rfl, fun _ => ⟨rfl, rfl⟩⟩

theorem TCB.Persists.trans {t t' t'' : TCB σ} (h : t.Persists t') (h' : t'.Persists t'') :
    t.Persists t'' := by
  rcases h' with hclosed | ⟨hphase', hkept'⟩
  · exact Or.inl hclosed
  rcases h with hclosed | ⟨hphase, hkept⟩
  · -- a closed connection stays closed
    rw [hclosed] at hphase'
    exact Or.inl (TCPState.eq_of_phase_closed hphase')
  · refine Or.inr ⟨hphase'.trans hphase, fun htaking => ?_⟩
    obtain ⟨hr', hopts'⟩ := hkept' htaking
    obtain ⟨hr, hopts⟩ := hkept (hphase' ▸ htaking)
    exact ⟨hr'.trans hr, hopts'.trans hopts⟩

/-- Nothing has come yet. -/
def TCB.Waits (t : TCB σ) : Prop :=
  t.state = .closed ∨ (t.state.receivePhase = .opening ∧ t.oooQueue = [] ∧ t.oooSize = 0)

theorem TCB.Waits.persists {t t' : TCB σ} (h : t.Waits) (hpersists : t.Persists t') :
    t'.Waits := by
  rcases hpersists with hclosed | ⟨hphase, hkept⟩
  · exact Or.inl hclosed
  rcases h with hclosed | ⟨hopening, hqueue, hsize⟩
  · rw [hclosed] at hphase
    exact Or.inl (TCPState.eq_of_phase_closed hphase)
  · have hopening' := hphase.trans hopening
    obtain ⟨hr, -⟩ := hkept (by rw [hopening']; decide)
    exact Or.inr ⟨hopening', (congrArg TCBReceive.oooQueue hr).trans hqueue,
      (congrArg TCBReceive.oooSize hr).trans hsize⟩

theorem Event.dataFor_of_ptr {p : Ptr} {ev : Event} (h : ev.ptr ≠ some p) : ev.dataFor p = [] := by
  cases ev with
  | onReceive q cb data => exact if_neg fun heq => h (congrArg some heq)
  | _ => rfl

namespace Conn

/-- **What a function of a connection owes to the receiver at `q`.** -/
structure Bypasses (q : Ptr) (c c' : Conn σ) : Prop where
  ptr : c'.ptr = c.ptr
  grows : Grows (fun ev => ev.dataFor q = []) c.trace c'.trace
  persists : c.ptr = q → c.tcb.Persists c'.tcb

namespace Bypasses
variable {q : Ptr} {c c' c'' : Conn σ}

theorem trans (h : c.Bypasses q c') (h' : c'.Bypasses q c'') : c.Bypasses q c'' :=
  ⟨h'.ptr.trans h.ptr, h.grows.trans h'.grows, fun heq =>
    (h.persists heq).trans (h'.persists (h.ptr.trans heq))⟩

/-- The work of another connection. -/
theorem other (h : c.Own c') (hne : c.ptr ≠ q) : c.Bypasses q c' := by
  refine ⟨h.ptr, h.grows.mono fun ev hev => Event.dataFor_of_ptr ?_, fun heq => absurd heq hne⟩
  rw [hev]
  exact fun heq => hne (Option.some.inj heq)

theorem setState (c : Conn σ) {s : TCPState}
    (hs : s = .closed ∨ s.receivePhase = c.tcb.state.receivePhase) :
    c.Bypasses q (c.setState s) :=
  ⟨rfl, .single rfl, fun _ => hs.imp id fun hphase => ⟨hphase, fun _ => ⟨rfl, rfl⟩⟩⟩

theorem log (c : Conn σ) {ev : Event} (hev : ev.dataFor q = []) : c.Bypasses q (c.log ev) :=
  ⟨rfl, .single hev, fun _ => .refl _⟩

theorem sendSegment (env : Env) (flags : UInt8) (data : List UInt8) (c : Conn σ) :
    c.Bypasses q (c.sendSegment env flags data) := by
  refine ⟨sendSegment_ptr .., (grows_sendSegment env flags data c).mono fun ev hev => hev.dataFor,
    fun _ => Or.inr ⟨by rw [sendSegment_state], fun _ => ⟨sendSegment_receive .., ?_⟩⟩⟩
  exact congrArg TCBIdentity.options (sendSegment_identity ..)

theorem of_path [ICongestionControl σ] {x : Option TCPSegment} (h : Path x c c') :
    c.Bypasses q c' := by
  refine ⟨h.ptr, h.grows.mono fun ev hev => hev.dataFor, fun _ => Or.inr ⟨?_, fun _ =>
    ⟨h.receive, congrArg TCBIdentity.options h.identity⟩⟩⟩
  rcases h.state with hstate | ⟨-, hstate⟩
  · rw [hstate]
  · rw [hstate, TCPState.receivePhase_afterFin]

end Bypasses
end Conn

namespace TCPConnectionManager

/-- **On the way from `o` to `m` the receiver at `q` is bypassed**, if it does not begin there. -/
structure Bypasses (q : Ptr) (o m : TCPConnectionManager σ) : Prop where
  next_le : o.nextAddr ≤ m.nextAddr
  received : m.received q = o.received q
  persists : ∀ t', m.heap q = some t' →
    (∃ t, o.heap q = some t ∧ t.Persists t') ∨ (o.nextAddr ≤ q ∧ t'.Waits)

namespace Bypasses
variable {p q : Ptr} {o m m' : TCPConnectionManager σ} {t : TCB σ} {ev : Event}

theorem refl (q : Ptr) (o : TCPConnectionManager σ) : Bypasses q o o :=
  ⟨Nat.le_refl _, rfl, fun t ht => Or.inl ⟨t, ht, .refl t⟩⟩

/-! ## The operations -/

/-- The other data, and the death of TCBs. -/
theorem of_heap (h : Bypasses q o m) (hheap : ∀ t, m'.heap q = some t → m.heap q = some t)
    (htrace : m'.received q = m.received q) (hnext : m.nextAddr ≤ m'.nextAddr) : Bypasses q o m' :=
  ⟨h.next_le.trans hnext, htrace.trans h.received, fun t' ht' => h.persists t' (hheap t' ht')⟩

theorem log (h : Bypasses q o m) (hev : ev.dataFor q = []) : Bypasses q o (m.log ev) :=
  h.of_heap (fun _ => id) (received_append (show (m.log ev).trace = m.trace ++ [ev] from rfl)
    fun ev' hmem => by
    rw [List.mem_singleton.mp hmem]
    exact hev) (Nat.le_refl _)

/-- A connection comes back from a function. -/
theorem store (h : Bypasses q o m) {c : Conn σ} (hp : m.heap p = some t)
    (hc : Conn.Bypasses q ⟨p, t, m.trace⟩ c) : Bypasses q o (m.store c) := by
  have hptr : c.ptr = p := hc.ptr
  obtain ⟨evs, htrace, hevs⟩ := hc.grows
  have hreceived : (m.store c).received q = m.received q := received_append htrace hevs
  subst hptr
  rcases eq_or_ne q c.ptr with rfl | hne
  · refine ⟨h.next_le, hreceived.trans h.received, fun t' ht' => ?_⟩
    rw [store_heap_self] at ht'
    cases ht'
    rcases h.persists t hp with ⟨u, hu, hpersists⟩ | ⟨hle, hwaits⟩
    · exact Or.inl ⟨u, hu, hpersists.trans (hc.persists rfl)⟩
    · exact Or.inr ⟨hle, hwaits.persists (hc.persists rfl)⟩
  · refine h.of_heap (fun t' ht' => ?_) hreceived (Nat.le_refl _)
    rwa [store_heap_ne m hne] at ht'

theorem on (h : Bypasses q o m) {f : Conn σ → Conn σ}
    (hf : ∀ t, m.heap p = some t → Conn.Bypasses q ⟨p, t, m.trace⟩ (f ⟨p, t, m.trace⟩)) :
    Bypasses q o (m.on p f) := by
  cases hp : m.heap p with
  | none =>
    rw [on_of_freed hp]
    exact h
  | some t =>
    rw [on_of_heap hp]
    exact h.store hp (hf t hp)

/-- The work of another connection. -/
theorem other (h : Bypasses q o m) (hne : p ≠ q) {f : Conn σ → Conn σ} (hf : ∀ c, Conn.Own c (f c)) :
    Bypasses q o (m.on p f) :=
  h.on fun _ _ => .other (hf _) hne

/-- A TCB of another connection changes. -/
theorem modify (h : Bypasses q o m) (hne : p ≠ q) (f : TCB σ → TCB σ) :
    Bypasses q o (m.modify p f) :=
  h.on fun _ _ => ⟨rfl, .refl _, fun heq => absurd heq hne⟩

theorem setState (h : Bypasses q o m) {s : TCPState} (hs : p = q → ∀ t, m.heap q = some t →
    s.receivePhase = t.state.receivePhase) : Bypasses q o (m.on p (·.setState s)) := by
  refine h.on fun t ht => ?_
  rcases eq_or_ne p q with rfl | hne
  · exact .setState _ (Or.inr (hs rfl t ht))
  · exact .other (.setState _ s) hne

theorem eraseConnection (h : Bypasses q o m) (k : TCPTuple) :
    Bypasses q o (m.eraseConnection k) := by
  refine h.of_heap (fun _ => eraseConnection_heap_some) ?_ ?_
  · rw [TCPConnectionManager.received, eraseConnection_trace]
    rfl
  · rw [eraseConnection_nextAddr]

theorem eraseListener (h : Bypasses q o m) (port : UInt16) : Bypasses q o (m.eraseListener port) := by
  refine h.of_heap (fun _ => eraseListener_heap_some) ?_ ?_
  · rw [TCPConnectionManager.received, eraseListener_trace]
    rfl
  · rw [eraseListener_nextAddr]

theorem deleteTcb (h : Bypasses q o m) (p : Ptr) : Bypasses q o (m.deleteTcb p) := by
  unfold TCPConnectionManager.deleteTcb
  split
  · exact h.eraseListener _
  · split
    · exact h
    · split
      · dsimp only
        split
        · have hcount : Bypasses q o { m with activeConnections := m.activeConnections - 1 } :=
            h.of_heap (fun _ => id) rfl (Nat.le_refl _)
          exact hcount.eraseConnection _
        · exact h.eraseConnection _
      · exact h

theorem endTcb (h : Bypasses q o m) (p : Ptr) (cause : EndCause) : Bypasses q o (m.endTcb p cause) :=
  h.on fun _ _ => (Conn.Bypasses.log _ rfl).trans (.setState _ (Or.inl rfl))

/-- A new TCB, filed at the next address. -/
theorem file (h : Bypasses q o m) {evs : List Event} (ht : q = m.nextAddr → t.Waits)
    (hheap : m'.heap = Function.update m.heap m.nextAddr (some t))
    (hnext : m'.nextAddr = m.nextAddr + 1) (htrace : m'.trace = m.trace ++ evs)
    (hevs : ∀ ev ∈ evs, ev.dataFor q = []) : Bypasses q o m' := by
  refine ⟨h.next_le.trans (hnext ▸ Nat.le_succ _), (received_append htrace hevs).trans h.received,
    fun u hu => ?_⟩
  rw [hheap] at hu
  rcases eq_or_ne q m.nextAddr with heq | hne
  · rw [heq, Function.update_self] at hu
    cases hu
    exact Or.inr ⟨heq ▸ h.next_le, ht heq⟩
  · rw [Function.update_of_ne hne] at hu
    exact h.persists u hu

theorem sendRst (h : Bypasses q o m) (seg : TCPSegment) : Bypasses q o (m.sendRst seg) := h.log rfl

variable [ICongestionControl σ]

/-! ## The application's calls -/

omit [ICongestionControl σ] in
theorem listen (h : Bypasses q o m) (port : UInt16) (onAccept : Option Callback) :
    Bypasses q o (m.listen port onAccept) := by
  unfold TCPConnectionManager.listen
  split
  · exact h
  split
  · exact h
  · exact h.file (fun _ => Or.inr ⟨rfl, rfl, rfl⟩) rfl rfl
      (show m.trace = m.trace ++ [] from (List.append_nil _).symm)
      fun _ hev => absurd hev List.not_mem_nil

theorem connect (h : Bypasses q o m) (env : Env) (remoteIp : UInt32) (remotePort localPort : UInt16)
    (onConnect : Option Callback) :
    Bypasses q o (m.connect env remoteIp remotePort localPort onConnect) := by
  by_cases hlimit : m.connections.length < maxConnections
  · cases hfree : m.findTcb ⟨m.localIp, remoteIp, localPort, remotePort⟩ with
    | none =>
      rw [connect_eq env _ _ _ _ hlimit hfree]
      refine Bypasses.log (h.file (fun _ => Or.inr ⟨rfl, rfl, rfl⟩) rfl rfl rfl fun ev hev => ?_) rfl
      simp only [List.mem_cons, List.not_mem_nil, or_false] at hev
      rcases hev with rfl | rfl | rfl <;> rfl
    | some p =>
      rw [TCPConnectionManager.connect, if_neg (Nat.not_le.mpr hlimit), hfree]
      exact h
  · rw [TCPConnectionManager.connect, if_pos (Nat.not_lt.mp hlimit)]
    exact h

omit [ICongestionControl σ] in
theorem setCallbacks (h : Bypasses q o m) (p : Ptr) (onReceive onClose : Option Callback) :
    Bypasses q o (m.setCallbacks p onReceive onClose) :=
  h.on (f := fun c => { c with tcb := { c.tcb with onReceive, onClose } }) fun _ _ =>
    ⟨rfl, .refl _, fun _ => Or.inr ⟨rfl, fun _ => ⟨rfl, rfl⟩⟩⟩

theorem close (h : Bypasses q o m) (env : Env) (p : Ptr) : Bypasses q o (m.close env p) := by
  unfold TCPConnectionManager.close
  cases hp : m.heap p with
  | none => exact h
  | some t =>
    have hfinish : t.state.canSend = true → Bypasses q o (m.on p (·.finish env)) := by
      intro hcan
      refine h.on fun u hu => ?_
      rw [hp] at hu
      cases hu
      exact .of_path (Conn.path_finish (x := none) env _ hcan)
    dsimp only
    cases hs : t.state with
    | established => exact hfinish (by rw [hs]; rfl)
    | closeWait => exact hfinish (by rw [hs]; rfl)
    | listen => exact h.deleteTcb p
    | synSent => exact Bypasses.deleteTcb (h.on fun _ _ => .log _ rfl) p
    | _ => exact h

/-- **Whatever the application calls.** -/
theorem call (h : Bypasses q o m) (env : Env) (a : Call) : Bypasses q o (m.call env a) := by
  cases a with
  | listen port onAccept => exact h.listen port onAccept
  | setListenerCallbacks port onReceive onClose =>
    unfold TCPConnectionManager.call
    dsimp only
    split
    · exact h
    · exact h.setCallbacks _ onReceive onClose
  | unlisten port => exact h.eraseListener port
  | connect remoteIp remotePort localPort onConnect =>
    exact h.connect env remoteIp remotePort localPort onConnect
  | send p data =>
    exact h.on (f := fun c => (c.send env data).2) fun _ _ =>
      .of_path (Conn.path_send (x := none) env _ data)
  | close p => exact h.close env p
  | setCallbacks p onReceive onClose => exact h.setCallbacks p onReceive onClose
  | setDefaultOptions opts => exact h.of_heap (fun _ => id) rfl (Nat.le_refl _)

theorem calls (h : Bypasses q o m) (env : Env) (as : List Call) : Bypasses q o (m.calls env as) := by
  induction as generalizing m with
  | nil => exact h
  | cons a as ih => exact ih (h.call env a)

theorem invoke (h : Bypasses q o m) (ctx : Context σ) (cb : Option Callback)
    (hev : ev.dataFor q = []) : Bypasses q o (m.invoke ctx ev cb) := by
  unfold TCPConnectionManager.invoke
  dsimp only
  split
  · exact (h.log hev).calls ctx.toEnv _
  · exact h.log hev

theorem notifyConnect (h : Bypasses q o m) (ctx : Context σ) (p : Ptr) (error : Int) :
    Bypasses q o (m.notifyConnect ctx p error) := by
  unfold TCPConnectionManager.notifyConnect
  split
  · exact h
  · exact h.invoke ctx _ rfl

theorem notifyClose (h : Bypasses q o m) (ctx : Context σ) (p : Ptr) :
    Bypasses q o (m.notifyClose ctx p) := by
  unfold TCPConnectionManager.notifyClose
  split
  · exact h
  · exact h.invoke ctx _ rfl

/-! ## Data for another connection -/

theorem deliverData (h : Bypasses q o m) (hne : p ≠ q) (ctx : Context σ) (data : List UInt8) :
    Bypasses q o (m.deliverData ctx p data) := by
  unfold TCPConnectionManager.deliverData
  split
  · exact h
  · rename_i t _
    have hev : (Event.onReceive p t.onReceive data).dataFor q = [] := if_neg hne
    exact Bypasses.other (h.invoke ctx _ hev) hne fun _ => .of_eq rfl rfl rfl rfl

theorem deliverOooData (h : Bypasses q o m) (hne : p ≠ q) (ctx : Context σ) (fuel : Nat) :
    Bypasses q o (m.deliverOooData ctx p fuel) := by
  induction fuel generalizing m with
  | zero => exact h
  | succ fuel ih =>
    unfold TCPConnectionManager.deliverOooData
    split
    · exact h
    · split
      · exact h
      split
      · exact ih (h.modify hne _)
      · exact ih (((h.deliverData hne ctx _).modify hne _).modify hne _)

theorem handleData (h : Bypasses q o m) (hne : p ≠ q) (ctx : Context σ) (seg : TCPSegment) :
    Bypasses q o (m.handleData ctx p seg) := by
  unfold TCPConnectionManager.handleData
  split
  · exact h
  rename_i t ht
  dsimp only
  generalize (if seqLt seg.seqNum t.rcvNxt = true then (t.rcvNxt - seg.seqNum).toNat else 0) =
    overlap
  generalize (if seqLt seg.seqNum t.rcvNxt = true then t.rcvNxt else seg.seqNum) = segStart
  split
  · exact h
  split
  · exact h
  split
  · exact h
  split
  · refine Bypasses.on ((((h.deliverData hne ctx _).modify hne _).deliverOooData hne ctx _))
      fun u hu => .other ?_ hne
    unfold Conn.acknowledgeData
    split
    · split
      · exact .of_eq rfl rfl rfl rfl
      · exact (Conn.Own.sendSegment ..).trans (.of_eq rfl rfl rfl rfl)
    · exact .sendSegment ..
  · exact (h.modify hne _).on fun _ _ => .sendSegment ..

theorem handlePayload (h : Bypasses q o m) (hne : p ≠ q) (ctx : Context σ) (seg : TCPSegment) :
    Bypasses q o (m.handlePayload ctx p seg) := by
  unfold TCPConnectionManager.handlePayload
  split
  · exact h.handleData hne ctx seg
  · exact h

theorem processAck (h : Bypasses q o m) (hne : p ≠ q) (env : Env) (ackNum : BitVec 32)
    (window : UInt16) : Bypasses q o (m.on p (·.processAck env ackNum window)) :=
  h.other hne fun c => .processAck env ackNum window c

/-- The acknowledgement, of any connection. -/
theorem handleAck (h : Bypasses q o m) (env : Env) (seg : TCPSegment)
    (hact : p = q → ∀ t, m.heap q = some t → t.state.isActive = true) :
    Bypasses q o (m.handleAck env p seg) := by
  unfold TCPConnectionManager.handleAck
  split
  · rename_i hack
    refine h.on fun t ht => ?_
    rcases eq_or_ne p q with rfl | hne
    · exact .of_path (Conn.ConnStep.processAck env ⟨p, t, m.trace⟩ seg rfl hack
        (hact rfl t ht)).path
    · exact .other (.processAck env seg.ackNum seg.window _) hne
  · exact h

omit [ICongestionControl σ] in
theorem receiveFin (h : Bypasses q o m) (hne : p ≠ q) (env : Env) (handler next : TCPState) :
    Bypasses q o (m.receiveFin env p handler next) := by
  refine h.other hne fun c => ?_
  have hrcv : c.Own { c with tcb := { c.tcb with rcvNxt := c.tcb.rcvNxt + 1 } } :=
    .of_eq rfl rfl rfl rfl
  exact ((hrcv.trans (.sendSegment env TCPFlags.ack [] _)).trans (.log rfl)).trans
    (.setState _ next)

/-! ## TIME_WAIT -/

omit [ICongestionControl σ] in
theorem expireTimeWait (h : Bypasses q o m) (cause : EndCause) (tuple : TCPTuple) :
    Bypasses q o (m.expireTimeWait cause tuple) := by
  unfold TCPConnectionManager.expireTimeWait
  split
  · exact h
  · split
    · exact (h.endTcb _ cause).deleteTcb _
    · exact h

omit [ICongestionControl σ] in
theorem evictTimeWait (h : Bypasses q o m) (l : List (Nat × TCPTuple)) :
    Bypasses q o (m.evictTimeWait l) := by
  induction l generalizing m with
  | nil => exact h.of_heap (fun _ => id) rfl (Nat.le_refl _)
  | cons entry rest ih =>
    unfold TCPConnectionManager.evictTimeWait
    split
    · exact ih (h.expireTimeWait .timeWaitEvicted entry.2)
    · exact h.of_heap (fun _ => id) rfl (Nat.le_refl _)

end Bypasses

/-- The connection at `q` takes no data, and will not any more. -/
def Deaf (q : Ptr) (m : TCPConnectionManager σ) : Prop :=
  ∀ t, m.heap q = some t → t.state.receivePhase = .ended ∨ t.state = .closed

namespace Bypasses
variable [ICongestionControl σ] {p q : Ptr} {o m : TCPConnectionManager σ} {seg : TCPSegment}
  {x : Input σ}

omit [ICongestionControl σ] in
/-- The buffers of a connection that takes no data, or has got none yet. -/
theorem release (h : Bypasses q o m) (hq : o.Deaf q) {u : TCB σ} (hu : m.heap q = some u) :
    u.Persists (releaseBuffers u) := by
  rcases h.persists u hu with ⟨t, ht, hpersists⟩ | ⟨-, hclosed | ⟨-, hqueue, hsize⟩⟩
  · rcases hpersists with hclosed | ⟨hphase, -⟩
    · exact Or.inl hclosed
    rcases hq t ht with hended | hclosed
    · exact Or.inr ⟨rfl, fun hne => absurd (hphase.trans hended) hne⟩
    · rw [hclosed] at hphase
      exact Or.inl (TCPState.eq_of_phase_closed hphase)
  · exact Or.inl hclosed
  · refine Or.inr ⟨rfl, fun _ => ⟨?_, rfl⟩⟩
    show ({ u.toTCBReceive with oooQueue := [], oooSize := 0 } : TCBReceive) = u.toTCBReceive
    rw [← hqueue, ← hsize]

omit [ICongestionControl σ] in
theorem startTimeWaitTimer (h : Bypasses q o m) (env : Env) (hq : p = q → o.Deaf q) :
    Bypasses q o (m.startTimeWaitTimer env p) := by
  unfold TCPConnectionManager.startTimeWaitTimer
  have hevict := h.evictTimeWait m.timeWaitList
  generalize m.evictTimeWait m.timeWaitList = m₁ at hevict
  dsimp only
  split
  · exact hevict
  · rename_i t ht
    let m₂ : TCPConnectionManager σ :=
      { m₁ with timeWaitList := m₁.timeWaitList ++ [(env.now + timeWaitDuration, t.tTuple)] }
    have hlist : Bypasses q o m₂ := hevict.of_heap (fun _ => id) rfl (Nat.le_refl _)
    exact Bypasses.on (m := m₂) hlist fun u hu => ⟨rfl, .refl _, fun heq =>
      hlist.release (hq heq) (heq ▸ hu)⟩

omit [ICongestionControl σ] in
theorem restartTimeWaitTimer (h : Bypasses q o m) (env : Env) (hq : p = q → o.Deaf q) :
    Bypasses q o (m.restartTimeWaitTimer env p) := by
  unfold TCPConnectionManager.restartTimeWaitTimer
  split
  · exact h
  · split
    · exact h.of_heap (fun _ => id) rfl (Nat.le_refl _)
    · exact h.startTimeWaitTimer env hq

/-! ## The handlers of other connections -/

theorem handleEstablished (h : Bypasses q o m) (hne : p ≠ q) (ctx : Context σ) (seg : TCPSegment) :
    Bypasses q o (m.handleEstablished ctx p seg) := by
  have hintake := (h.handleAck ctx.toEnv seg fun heq => absurd heq hne).handlePayload hne ctx seg
  unfold TCPConnectionManager.handleEstablished
  dsimp only
  split
  · exact (hintake.receiveFin hne ctx.toEnv _ _).notifyClose ctx p
  · exact hintake

theorem handleFinWait1 (h : Bypasses q o m) (hne : p ≠ q) (ctx : Context σ) (seg : TCPSegment) :
    Bypasses q o (m.handleFinWait1 ctx p seg) := by
  have hacked := h.handleAck ctx.toEnv seg fun heq => absurd heq hne
  unfold TCPConnectionManager.handleFinWait1
  dsimp only
  generalize m.handleAck ctx.toEnv p seg = m₁ at hacked ⊢
  have hintake := hacked.handlePayload hne ctx seg
  generalize m₁.handlePayload ctx p seg = m₂ at hintake ⊢
  split
  · split
    · exact (hintake.receiveFin hne ctx.toEnv _ _).startTimeWaitTimer ctx.toEnv
        fun heq => absurd heq hne
    · exact hintake.receiveFin hne ctx.toEnv _ _
  · split
    · exact hintake.other hne fun c => .setState c _
    · exact hintake

theorem handleFinWait2 (h : Bypasses q o m) (hne : p ≠ q) (ctx : Context σ) (seg : TCPSegment) :
    Bypasses q o (m.handleFinWait2 ctx p seg) := by
  have hintake := (h.handleAck ctx.toEnv seg fun heq => absurd heq hne).handlePayload hne ctx seg
  unfold TCPConnectionManager.handleFinWait2
  dsimp only
  split
  · exact (hintake.receiveFin hne ctx.toEnv _ _).startTimeWaitTimer ctx.toEnv
      fun heq => absurd heq hne
  · exact hintake

omit [ICongestionControl σ] in
theorem establish (h : Bypasses q o m) (hne : p ≠ q) : Bypasses q o (m.establish p) :=
  (h.other hne fun c => .setState c .established).of_heap (fun _ => id) rfl (Nat.le_refl _)

theorem handleSynSent (h : Bypasses q o m) (hne : p ≠ q) (ctx : Context σ) (seg : TCPSegment) :
    Bypasses q o (m.handleSynSent ctx p seg) := by
  unfold TCPConnectionManager.handleSynSent
  split
  · split
    · exact h.sendRst seg
    · have hacked := (h.modify hne (receiveSyn seg)).processAck hne ctx.toEnv seg.ackNum seg.window
      exact ((hacked.on fun _ _ => .sendSegment ..).establish hne).notifyConnect ctx p 0
  · split
    · exact (h.modify hne _).other hne fun c =>
        (Conn.Own.sendSegment ctx.toEnv (TCPFlags.syn ||| TCPFlags.ack) [] c).trans (.setState _ _)
    · exact h

theorem handleSynRcvd (h : Bypasses q o m) (hne : p ≠ q) (ctx : Context σ) (seg : TCPSegment) :
    Bypasses q o (m.handleSynRcvd ctx p seg) := by
  unfold TCPConnectionManager.handleSynRcvd
  split
  · split
    · exact h.deleteTcb p
    · exact ((h.notifyConnect ctx p _).other hne fun c => .setState c _).deleteTcb p
  split
  · exact h
  split
  · exact h.sendRst seg
  · have hopen := ((h.processAck hne ctx.toEnv seg.ackNum seg.window).establish hne).notifyConnect
      ctx p 0
    dsimp only
    split
    · exact hopen.handleEstablished hne ctx seg
    · exact hopen

omit [ICongestionControl σ] in
theorem openWith (h : Bypasses q o m) (hne : q ≠ m.nextAddr) (env : Env)
    (flags : UInt8) (s : TCPState) (t : TCB σ) : Bypasses q o (m.openWith env flags s t) := by
  refine h.file (fun heq => absurd heq hne) rfl rfl rfl fun ev hev => ?_
  simp only [List.mem_cons, List.not_mem_nil, or_false] at hev
  rcases hev with rfl | rfl | rfl <;> rfl

/-- `handle_listen`: the connection it makes is another one. -/
theorem handleListen (h : Bypasses q o m) (hwf : m.WellFormed) (hne : q ≠ m.nextAddr) (env : Env)
    {lp : Ptr} (hlisten : m.findListeningTcb seg.dstPort = some lp) :
    Bypasses q o (m.handleListen env lp seg) := by
  obtain ⟨l, hlp, -, -⟩ := hwf.findListening hlisten
  by_cases hflags : (!seg.isSyn || seg.isAck) = true
  · simp only [TCPConnectionManager.handleListen, hlp, hflags, if_true]
    exact h
  obtain ⟨hsyn, hnack⟩ : seg.isSyn = true ∧ seg.isAck = false := by simpa using hflags
  by_cases hlimit : maxConnections ≤ m.connections.length
  · simp only [TCPConnectionManager.handleListen, hlp, hflags, hlimit, if_true]
    exact h
  have hlimit' : m.connections.length < maxConnections := Nat.not_le.mp hlimit
  cases hold : m.findTcb ⟨m.localIp, seg.srcAddr, seg.dstPort, seg.srcPort⟩ with
  | none =>
    rw [handleListen_of_free hwf env hsyn hnack hlisten hlp hlimit' hold]
    exact h.openWith hne ..
  | some old =>
    rw [handleListen_of_found hwf env hsyn hnack hlisten hlp hlimit' rfl hold]
    refine ((h.endTcb old .replaced).eraseConnection _).openWith ?_ ..
    rwa [eraseConnection_nextAddr, endTcb_nextAddr]

/-! ## The handlers behind a FIN, and RST -/

theorem handleClosing (h : Bypasses q o m) (hwf : m.WellFormed) (hin : m.InState p .closing)
    (hx : x.seg = some seg) (hq : p = q → o.Deaf q) :
    Bypasses q o (m.handleClosing x.ctx p seg) := by
  obtain ⟨-, hin'⟩ := path_handleAck_inState (hin.ready hwf rfl) hin rfl rfl x.ctx.toEnv hx
  have hacked := h.handleAck x.ctx.toEnv seg (p := p) fun heq t ht => by
    obtain ⟨u, hu, -, hstate⟩ := hin
    rw [heq, ht] at hu
    cases hu
    rw [hstate]
    rfl
  unfold TCPConnectionManager.handleClosing
  dsimp only
  split
  · refine (hacked.setState fun heq t ht => ?_).startTimeWaitTimer x.ctx.toEnv hq
    subst heq
    obtain ⟨u, hu, -, hstate⟩ := hin'
    rw [ht] at hu
    cases hu
    rw [hstate]
    rfl
  · exact hacked

theorem handleLastAck (h : Bypasses q o m) (ctx : Context σ)
    (hact : p = q → ∀ t, m.heap q = some t → t.state.isActive = true) (seg : TCPSegment) :
    Bypasses q o (m.handleLastAck ctx p seg) := by
  have hacked := h.handleAck ctx.toEnv seg hact
  unfold TCPConnectionManager.handleLastAck
  dsimp only
  split
  · exact (hacked.endTcb p .lastAck).deleteTcb p
  · exact hacked

omit [ICongestionControl σ] in
theorem handleTimeWait (h : Bypasses q o m) (ctx : Context σ) (seg : TCPSegment)
    (hq : p = q → o.Deaf q) : Bypasses q o (m.handleTimeWait ctx p seg) := by
  unfold TCPConnectionManager.handleTimeWait
  split
  · exact (h.on fun _ _ => .sendSegment ..).restartTimeWaitTimer ctx.toEnv hq
  · exact h

theorem handleRst (h : Bypasses q o m) (ctx : Context σ) (p : Ptr) (seg : TCPSegment) :
    Bypasses q o (m.handleRst ctx p seg) := by
  unfold TCPConnectionManager.handleRst
  split
  · dsimp only
    split
    · have hcount : Bypasses q o { m with activeConnections := m.activeConnections - 1 } :=
        h.of_heap (fun _ => id) rfl (Nat.le_refl _)
      exact ((hcount.endTcb p .rst).notifyClose ctx p).deleteTcb p
    · exact ((h.endTcb p .rst).notifyClose ctx p).deleteTcb p
  · exact h

omit [ICongestionControl σ] in
theorem handleClosed (h : Bypasses q o m) (seg : TCPSegment) : Bypasses q o (m.handleClosed seg) := by
  unfold TCPConnectionManager.handleClosed
  split
  · exact h
  · exact h.sendRst seg

/-- **A segment for another connection**, or for one that does not take data. -/
theorem onSegmentReceived (hwf : m.WellFormed) (hx : x.seg = some seg)
    (hother : seg.isRst = false → m.findTcb seg.tuple = some q → m.Deaf q)
    (hnew : seg.isRst = false → m.findTcb seg.tuple = none →
      m.findListeningTcb seg.dstPort ≠ none → q ≠ m.nextAddr) :
    Bypasses q m (m.onSegmentReceived x.ctx seg) := by
  have h : Bypasses q m m := .refl q m
  unfold TCPConnectionManager.onSegmentReceived
  cases hfind : m.findTcb seg.tuple with
  | none =>
    rw [Option.orElse_eq_orElse, Option.orElse_eq_or, Option.none_or]
    cases hlisten : m.findListeningTcb seg.dstPort with
    | none =>
      dsimp only
      split
      · exact h
      · exact h.sendRst seg
    | some lp =>
      obtain ⟨t, hp, -, hs⟩ := hwf.findListening hlisten
      dsimp only
      split
      · exact h.handleRst x.ctx lp seg
      rename_i hrst
      rw [hp]
      dsimp only
      rcases hs with hs | hs <;> rw [hs] <;> dsimp only
      · refine h.handleListen hwf (hnew (by simpa using hrst) hfind ?_) x.ctx.toEnv hlisten
        rw [hlisten]
        exact Option.some_ne_none lp
      · exact h.handleClosed seg
  | some p =>
    obtain ⟨t, hp, -, hlisten⟩ := hwf.find hfind
    rw [Option.orElse_eq_orElse, Option.orElse_eq_or, Option.some_or]
    dsimp only
    split
    · exact h.handleRst x.ctx p seg
    rename_i hrst
    have hdeaf : p = q → m.Deaf q := by
      rintro rfl
      exact hother (by simpa using hrst) hfind
    rw [hp]
    dsimp only
    have hin : ∀ s, t.state = s → s ≠ .listen → s ≠ .closed → m.InState p s := by
      rintro s rfl hl hc
      exact ⟨t, hp, hwf.mem_connections hp hl hc, rfl⟩
    -- the connection itself does not take data
    have hne : t.state.receivePhase ≠ .ended → t.state ≠ .closed → p ≠ q := by
      rintro hended hclosed rfl
      rcases hdeaf rfl t hp with h | h
      · exact hended h
      · exact hclosed h
    have hact : t.state.isActive = true → p = q → ∀ u, m.heap q = some u →
        u.state.isActive = true := by
      rintro hs rfl u hu
      rw [hp] at hu
      cases hu
      exact hs
    cases hs : t.state with
    | closed => exact h.handleClosed seg
    | listen => exact absurd hs hlisten
    | synSent => exact h.handleSynSent (hne (by rw [hs]; decide) (by rw [hs]; decide)) x.ctx seg
    | synRcvd => exact h.handleSynRcvd (hne (by rw [hs]; decide) (by rw [hs]; decide)) x.ctx seg
    | established =>
      exact h.handleEstablished (hne (by rw [hs]; decide) (by rw [hs]; decide)) x.ctx seg
    | finWait1 =>
      exact h.handleFinWait1 (hne (by rw [hs]; decide) (by rw [hs]; decide)) x.ctx seg
    | finWait2 =>
      exact h.handleFinWait2 (hne (by rw [hs]; decide) (by rw [hs]; decide)) x.ctx seg
    | closeWait => exact h.handleAck x.ctx.toEnv seg (hact (by rw [hs]; rfl))
    | closing =>
      exact h.handleClosing hwf (hin _ hs (by decide) (by decide)) hx hdeaf
    | lastAck => exact h.handleLastAck x.ctx (hact (by rw [hs]; rfl)) seg
    | timeWait => exact h.handleTimeWait x.ctx seg hdeaf

/-! ## The timer -/

theorem checkRetransmit (h : Bypasses q o m) (ctx : Context σ) (p : Ptr) :
    Bypasses q o (m.checkRetransmit ctx p) := by
  unfold TCPConnectionManager.checkRetransmit
  split
  · have hcount : Bypasses q o (m.on p (·.countRetransmit)) :=
      h.on fun _ _ => .of_path (x := none) (Conn.path_countRetransmit _)
    dsimp only
    split
    · exact (hcount.notifyClose ctx p).endTcb p .gaveUp
    · exact hcount.on fun _ _ => .of_path (x := none) (Conn.path_retransmit ctx.toEnv _)
  · exact h

/-- One connection of the sweep. -/
theorem visit {s : TCPConnectionManager σ × List TCPTuple} (h : Bypasses q o s.1) (ctx : Context σ)
    (tuple : TCPTuple) : Bypasses q o (visit ctx s tuple).1 := by
  unfold TCPConnectionManager.visit
  split
  · exact h
  · rename_i p _
    have hcheck := h.checkRetransmit ctx p
    dsimp only
    split
    · exact hcheck
    · refine Bypasses.on (hcheck.on fun _ _ => ?_) fun _ _ => ?_
      · exact .of_path (x := none) (Conn.path_checkDelayedAck ctx.toEnv _)
      · exact .of_path (x := none) (Conn.path_checkZeroWindowProbe ctx.toEnv _)

theorem sweep (order : List TCPTuple) {s : TCPConnectionManager σ × List TCPTuple}
    (h : Bypasses q o s.1) (ctx : Context σ) :
    Bypasses q o (order.foldl (TCPConnectionManager.visit ctx) s).1 := by
  induction order generalizing s with
  | nil => exact h
  | cons tuple order ih => exact ih (h.visit ctx tuple)

omit [ICongestionControl σ] in
theorem eraseAll (h : Bypasses q o m) (l : List TCPTuple) :
    Bypasses q o (l.foldl TCPConnectionManager.eraseConnection m) := by
  induction l generalizing m with
  | nil => exact h
  | cons tuple l ih => exact ih (h.eraseConnection tuple)

omit [ICongestionControl σ] in
theorem expireAll (h : Bypasses q o m) (now : Nat) (l : List (Nat × TCPTuple)) :
    Bypasses q o (l.foldl (fun m entry =>
      if entry.1 ≤ now then m.expireTimeWait .timeWaitExpired entry.2 else m) m) := by
  induction l generalizing m with
  | nil => exact h
  | cons entry l ih =>
    rw [List.foldl_cons]
    split
    · exact ih (h.expireTimeWait .timeWaitExpired entry.2)
    · exact ih h

theorem onTimer (h : Bypasses q o m) (ctx : Context σ) (order : List TCPTuple) :
    Bypasses q o (m.onTimer ctx order) := by
  unfold TCPConnectionManager.onTimer
  dsimp only
  generalize (if order.isPerm (m.connections.map (·.1)) then order
    else m.connections.map (·.1)) = keys
  have hsweep := sweep keys (s := (m, [])) h ctx
  generalize keys.foldl (TCPConnectionManager.visit ctx) (m, []) = s at hsweep
  exact ((hsweep.eraseAll s.2).expireAll ctx.now _).of_heap (fun _ => id) rfl (Nat.le_refl _)

/-- **An entry bypasses the receiver at `q`**, if it is no segment that `q` takes or begins with. -/
theorem step (hwf : m.WellFormed) (hother : ∀ seg, x.seg = some seg → seg.isRst = false →
      m.findTcb seg.tuple = some q → m.Deaf q)
    (hnew : ∀ seg, x.seg = some seg → seg.isRst = false → m.findTcb seg.tuple = none →
      m.findListeningTcb seg.dstPort ≠ none → q ≠ m.nextAddr) :
    Bypasses q m (m.step x) := by
  unfold TCPConnectionManager.step
  cases hop : x.op with
  | call a => exact (Bypasses.refl q m).call x.ctx.toEnv a
  | segment seg =>
    have hx : x.seg = some seg := by rw [Input.seg, hop]
    exact onSegmentReceived hwf hx (hother seg hx) (hnew seg hx)
  | timer order => exact (Bypasses.refl q m).onTimer x.ctx order

end Bypasses
end TCPConnectionManager
end NeuStack
