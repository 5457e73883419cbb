import NeuStack.GuardedRun
import NeuStack.MovesWellFormed

/-! # Every entry is a sequence of moves

Function by function: a call of the application, the work of the handlers on
their connection, the handlers, and the timer.  `path_step` is the result; with
`WellFormed.move` it makes every reachable manager well-formed.
-/
namespace NeuStack
variable {σ : Type}

namespace TCPConnectionManager
variable {m m' : TCPConnectionManager σ} {p : Ptr} {t : TCB σ} {s : TCPState}

/-! ## Deleting -/

theorem WellFormed.find_listener_none (h : m.WellFormed) {k : TCPTuple}
    (hk : (k, p) ∈ m.connections) : m.listeners.find? (·.2 == p) = none := by
  rw [List.find?_eq_none]
  rintro ⟨port, q⟩ hq heq
  rw [beq_iff_eq] at heq
  subst heq
  exact h.disjoint k port q hk hq

/-- Deleting the TCB of a connection erases its entry. -/
theorem WellFormed.deleteTcb_connection (h : m.WellFormed) (hp : m.heap p = some t)
    (hk : (t.tTuple, p) ∈ m.connections) (hs : t.state.isActive = false) :
    m.deleteTcb p = m.eraseConnection t.tTuple := by
  have hfind : m.findTcb t.tTuple = some p := h.findTcb_iff.mpr hk
  rw [deleteTcb, h.find_listener_none hk]
  simp only [hp, hfind, hs, Option.isSome_some, if_true]
  rfl

theorem WellFormed.deleteTcb_listener (h : m.WellFormed) {port : UInt16}
    (hl : (port, p) ∈ m.listeners) : m.deleteTcb p = m.eraseListener port := by
  cases hfind : m.listeners.find? (·.2 == p) with
  | none =>
    rw [List.find?_eq_none] at hfind
    exact absurd (beq_self_eq_true p) (hfind _ hl)
  | some e =>
    obtain ⟨port', q⟩ := e
    have hq : q = p := by simpa using List.find?_some hfind
    subst hq
    have hl' : (port', q) ∈ m.listeners := List.mem_of_find?_eq_some hfind
    rw [deleteTcb, hfind, h.port_eq hl hl']

theorem WellFormed.deleteTcb_freed (h : m.WellFormed) (hp : m.heap p = none) :
    m.deleteTcb p = m := by
  have hfind : m.listeners.find? (·.2 == p) = none := by
    rw [List.find?_eq_none]
    rintro ⟨port, q⟩ hq heq
    rw [beq_iff_eq] at heq
    subst heq
    obtain ⟨t, ht, -⟩ := h.listener port q hq
    rw [hp] at ht
    cases ht
  rw [deleteTcb, hfind]
  simp only [hp]

/-- A closed TCB leaves the heap with `endTcb` and the table with `deleteTcb`. -/
theorem WellFormed.deleteTcb_endTcb (h : m.WellFormed) (hp : m.heap p = some t)
    (hk : (t.tTuple, p) ∈ m.connections) (cause : EndCause) :
    (m.endTcb p cause).deleteTcb p = (m.endTcb p cause).eraseConnection t.tTuple := by
  have hwf := h.endTcb (p := p) cause
  rw [endTcb_of_heap hp] at hwf ⊢
  exact hwf.deleteTcb_connection (t := { t with state := .closed })
    (store_heap_self m ⟨p, { t with state := .closed }, _⟩) hk rfl

variable [ICongestionControl σ] {o : TCPConnectionManager σ} {x : Input σ}

/-! ## Opening -/

omit [ICongestionControl σ] in
/-- Work on a TCB that has just been filed. -/
theorem on_spawn {evs evs' : List Event} {f : Conn σ → Conn σ} {t' : TCB σ}
    (hf : f ⟨m.nextAddr, t, m.trace ++ evs⟩ = ⟨m.nextAddr, t', m.trace ++ evs'⟩)
    (htuple : t'.tTuple = t.tTuple) : (m.spawn t evs).on m.nextAddr f = m.spawn t' evs' := by
  have hp : (m.spawn t evs).heap m.nextAddr = some t := Function.update_self ..
  rw [on_of_heap hp, show (m.spawn t evs).trace = m.trace ++ evs from rfl, hf]
  simp only [store, spawn, Function.update_idem, htuple]

omit [ICongestionControl σ] in
theorem modify_spawn (evs : List Event) (f : TCB σ → TCB σ) (htuple : (f t).tTuple = t.tTuple) :
    (m.spawn t evs).modify m.nextAddr f = m.spawn (f t) evs := on_spawn rfl htuple

theorem createTcb_of_free {k : TCPTuple} (env : Env) (hfree : m.findTcb k = none) :
    m.createTcb env k =
      (m.nextAddr, m.spawn (newTcb env m.defaultOptions k) [.created m.nextAddr k]) := by
  simp only [createTcb, hfree]
  rfl

omit [ICongestionControl σ] in
/-- The SYN of a new connection. -/
theorem openWith_eq (env : Env) {flags : UInt8} (s : TCPState)
    (hflags : flags = TCPFlags.syn ∨ flags = TCPFlags.syn ||| TCPFlags.ack) :
    (m.spawn t [.created m.nextAddr t.tTuple]).on m.nextAddr
      (fun c => (c.sendSegment env flags []).setState s) = m.openWith env flags s t := by
  refine on_spawn ?_ rfl
  rw [Conn.sendSegment_syn env hflags]
  simp [Conn.setState, TCB.sendSyn, TCB.enqueue, TCB.countSent]

theorem connect_eq (env : Env) (remoteIp : UInt32) (remotePort localPort : UInt16)
    (onConnect : Option Callback) (hlimit : m.connections.length < maxConnections)
    (hfree : m.findTcb ⟨m.localIp, remoteIp, localPort, remotePort⟩ = none) :
    m.connect env remoteIp remotePort localPort onConnect =
      (m.openWith env TCPFlags.syn .synSent
        (m.connectTcb env ⟨m.localIp, remoteIp, localPort, remotePort⟩ onConnect)).log
          (.connecting m.nextAddr onConnect) := by
  unfold connect
  simp only [Nat.not_le.mpr hlimit, if_false, hfree, Option.isSome_none, Bool.false_eq_true,
    createTcb_of_free env hfree]
  rw [modify_spawn _ _ rfl]
  congr 1
  exact openWith_eq env .synSent (Or.inl rfl)

/-! ## The application's calls -/

/-- A sequence of what the call `a` does. -/
abbrev CallPath (a : Call) : TCPConnectionManager σ → TCPConnectionManager σ → Prop :=
  Relation.ReflTransGen (CallMove a)

theorem path_modifyCallbacks {a : Call} (p : Ptr) (onReceive onClose : Option Callback)
    (ha : a = .setCallbacks p onReceive onClose ∨
      ∃ port, a = .setListenerCallbacks port onReceive onClose) :
    CallPath a m (m.setCallbacks p onReceive onClose) := by
  unfold setCallbacks
  cases hp : m.heap p with
  | none =>
    rw [modify, on_of_freed hp]
  | some t =>
    rw [modify_of_heap hp]
    exact .single (.setCallbacks onReceive onClose ha hp)

theorem path_close (h : m.WellFormed) (env : Env) (p : Ptr) :
    CallPath (.close p) m (m.close env p) := by
  unfold close
  cases hp : m.heap p with
  | none => exact .refl
  | some t =>
    dsimp only
    have hfinish : t.state.canSend = true → CallPath (.close p) m (m.on p (·.finish env)) := by
      intro hs
      rw [on_of_heap hp]
      exact .single (.conn (Or.inr rfl) hp (.finish env _ hs))
    cases hs : t.state with
    | established => exact hfinish (by rw [hs]; rfl)
    | closeWait => exact hfinish (by rw [hs]; rfl)
    | listen =>
      dsimp only
      have hl := h.mem_listeners hp hs
      rw [h.deleteTcb_listener hl]
      exact .single (.unlisten _ (Or.inr ⟨p, rfl, hl⟩))
    | synSent =>
      have hk := h.mem_connections hp (by rw [hs]; decide) (by rw [hs]; decide)
      dsimp only
      rw [on_of_heap hp, show (m.store ((Conn.mk p t m.trace).log (.ended p t.state .localClose)))
        = m.log (.ended p .synSent .localClose) by
          rw [hs]
          simp [store, Conn.log, TCPConnectionManager.log, hp],
        (h.log _).deleteTcb_connection hp hk (by rw [hs]; rfl)]
      exact .single (.abort hp hs)
    | _ => exact .refl

theorem path_call (h : m.WellFormed) (env : Env) (a : Call) : CallPath a m (m.call env a) := by
  cases a with
  | listen port onAccept => exact .single (.listen m port onAccept)
  | setListenerCallbacks port onReceive onClose =>
    unfold call
    dsimp only
    split
    · exact .refl
    · exact path_modifyCallbacks _ _ _ (Or.inr ⟨port, rfl⟩)
  | unlisten port => exact .single (.unlisten port (Or.inl rfl))
  | connect remoteIp remotePort localPort onConnect =>
    show CallPath _ m (m.connect env remoteIp remotePort localPort onConnect)
    by_cases hlimit : m.connections.length < maxConnections
    · cases hfree : m.findTcb ⟨m.localIp, remoteIp, localPort, remotePort⟩ with
      | none =>
        rw [connect_eq env _ _ _ _ hlimit hfree]
        exact .single (.connect env m remoteIp remotePort localPort onConnect hlimit hfree)
      | some q =>
        rw [connect, if_neg (Nat.not_le.mpr hlimit), hfree]
        exact .refl
    · rw [connect, if_pos (Nat.not_lt.mp hlimit)]
  | send p data =>
    show CallPath _ m (m.on p fun c => (c.send env data).2)
    cases hp : m.heap p with
    | none => rw [on_of_freed hp]
    | some t =>
      rw [on_of_heap hp]
      exact .single (.conn (Or.inl ⟨data, rfl⟩) hp (.send env _ data))
  | close p => exact path_close h env p
  | setCallbacks p onReceive onClose => exact path_modifyCallbacks p _ _ (Or.inl rfl)
  | setDefaultOptions opts => exact .single (.setDefaultOptions m opts)

/-- A call is work, if the input makes it. -/
theorem CallPath.workPath {a : Call} (h : CallPath a m m') (ha : x.Makes a)
    (d : Option (Ptr × BitVec 32)) : WorkPath x ⟨m, d⟩ ⟨m', d⟩ := by
  induction h with
  | refl => exact .refl
  | tail _ hmove ih => exact ih.tail (.call d ha hmove)

theorem path_calls (h : m.WellFormed) (env : Env) (as : List Call) (has : ∀ a ∈ as, x.Makes a)
    (d : Option (Ptr × BitVec 32)) : WorkPath x ⟨m, d⟩ ⟨m.calls env as, d⟩ := by
  induction as generalizing m with
  | nil => exact .refl
  | cons a as ih =>
    have ha := (path_call h env a).workPath (has a (List.mem_cons_self ..)) d
    exact ha.trans (ih (ha.wellFormed h) fun b hb => has b (List.mem_cons_of_mem _ hb))

/-! ## Callbacks and data -/

/-- Once the event is logged, a callback is the calls it makes. -/
theorem path_invoke (h : m.WellFormed) (ev : Event) (cb : Option Callback)
    (d : Option (Ptr × BitVec 32)) : WorkPath x ⟨m.log ev, d⟩ ⟨m.invoke x.ctx ev cb, d⟩ := by
  unfold invoke
  dsimp only
  split
  · exact path_calls (h.log ev) _ _ (fun a ha => Or.inr ⟨_, _, ha⟩) d
  · exact .refl

theorem path_notifyClose (h : m.WellFormed) (p : Ptr) :
    WorkPath x ⟨m, none⟩ ⟨m.notifyClose x.ctx p, none⟩ := by
  unfold notifyClose
  split
  · exact .refl
  · rename_i t hp
    exact .head (.notifyClose hp) (path_invoke h _ _ none)

/-- The function `f` of a connection, run on the one at `p`. -/
theorem path_on (d : Option (Ptr × BitVec 32)) {f : Conn σ → Conn σ}
    (hf : ∀ t, m.heap p = some t → Conn.ConnStep x.seg ⟨p, t, m.trace⟩ (f ⟨p, t, m.trace⟩)) :
    WorkPath x ⟨m, d⟩ ⟨m.on p f, d⟩ := by
  cases hp : m.heap p with
  | none => rw [on_of_freed hp]
  | some t =>
    rw [on_of_heap hp]
    exact .single (.conn d hp (hf t hp))

/-- **A connection at work**: active, in a well-formed manager. -/
structure Ready (m : TCPConnectionManager σ) (p : Ptr) : Prop where
  wellFormed : m.WellFormed
  inState : ∃ s, s.isActive = true ∧ m.InState p s

theorem TCPState.ne_synSent_of_isActive {s : TCPState} (hs : s.isActive = true) :
    s ≠ .synSent := by
  rintro rfl
  cases hs

/-- Work leaves a connection ready for more. -/
theorem Ready.work {s s' : Stage σ} (h : Ready s.mgr p) (hpath : WorkPath x s s') :
    Ready s'.mgr p := by
  obtain ⟨hwf, a, hact, hin⟩ := h
  obtain ⟨b, hreach, hin'⟩ := hpath.kept hwf hin (TCPState.ne_synSent_of_isActive hact)
  exact ⟨hpath.wellFormed hwf, b, hreach.isActive hact, hin'⟩

omit [ICongestionControl σ] in
theorem Ready.heap (h : Ready m p) : ∃ t, m.heap p = some t ∧ t.state.isActive = true := by
  obtain ⟨-, _, hact, t, hp, -, rfl⟩ := h
  exact ⟨t, hp, hact⟩

/-- What `deliver_data` does behind its event. -/
theorem path_deliverData (h : Ready m p) (data : List UInt8)
    (d : Option (Ptr × BitVec 32)) (hp : m.heap p = some t) :
    WorkPath x ⟨m.log (.onReceive p t.onReceive data), d⟩ ⟨m.deliverData x.ctx p data, d⟩ := by
  unfold deliverData
  rw [hp]
  have hinvoke := path_invoke (x := x) h.wellFormed (.onReceive p t.onReceive data)
    t.onReceive d
  have hlog : Ready (m.log (.onReceive p t.onReceive data)) p := ⟨h.wellFormed.log _, h.inState⟩
  refine hinvoke.trans (path_on d fun u hu => .updateRcvWnd _ (fun hl => ?_))
  obtain ⟨v, hv, hact⟩ := (hlog.work hinvoke).heap
  dsimp only at hv
  rw [hu] at hv
  cases hv
  rw [show u.state = .listen from hl] at hact
  cases hact

/-- Data goes to the application, and is counted. -/
theorem path_deliver (h : Ready m p) (data : List UInt8) (seq : BitVec 32)
    (hp : m.heap p = some t)
    (hmove : Work x ⟨m, none⟩ ⟨m.log (.onReceive p t.onReceive data), some (p, seq)⟩) :
    WorkPath x ⟨m, none⟩ ⟨(m.deliverData x.ctx p data).modify p (setRcvNxt seq), none⟩ := by
  have hpath := Relation.ReflTransGen.head hmove (path_deliverData h data _ hp)
  obtain ⟨u, hu, hact⟩ := (h.work hpath).heap
  rw [modify_of_heap hu]
  exact hpath.tail (.advanceRcv hu hact)

theorem path_popOoo (h : Ready m p) : WorkPath x ⟨m, none⟩ ⟨m.modify p popOoo, none⟩ := by
  obtain ⟨t, hp, hact⟩ := h.heap
  rw [modify_of_heap hp]
  exact .single (.popOoo hp hact)

theorem path_deliverOooData (h : Ready m p) (fuel : Nat) :
    WorkPath x ⟨m, none⟩ ⟨m.deliverOooData x.ctx p fuel, none⟩ := by
  induction fuel generalizing m with
  | zero => exact .refl
  | succ fuel ih =>
    unfold deliverOooData
    obtain ⟨t, hp, hact⟩ := h.heap
    rw [hp]
    cases hq : t.oooQueue with
    | nil =>
      simp only [Option.bind_some, hq, List.head?_nil, Option.map_none]
      exact .refl
    | cons front rest =>
      simp only [Option.bind_some, hq, List.head?_cons, Option.map_some]
      split
      · exact .refl
      rename_i hgt
      split
      · have hpop := path_popOoo (x := x) h
        exact hpop.trans (ih (h.work hpop))
      · rename_i hle
        have hdeliver := path_deliver h _ front.seqEnd hp
          (.deliverOoo (x := x) hp hact hq (Bool.not_eq_true _ ▸ hgt) (Bool.not_eq_true _ ▸ hle))
        have hpop := path_popOoo (x := x) (h.work hdeliver)
        exact (hdeliver.trans hpop).trans (ih ((h.work hdeliver).work hpop))

/-- A step of the connection whose condition is that it is active. -/
theorem path_on_active (h : Ready m p) {f : Conn σ → Conn σ}
    (hf : ∀ t, t.state.isActive = true →
      Conn.ConnStep x.seg ⟨p, t, m.trace⟩ (f ⟨p, t, m.trace⟩)) :
    WorkPath x ⟨m, none⟩ ⟨m.on p f, none⟩ := by
  obtain ⟨t, hp, hact⟩ := h.heap
  refine path_on none fun u hu => hf u ?_
  rw [hp] at hu
  cases hu
  exact hact

/-- Data in sequence, from its delivery to its acknowledgement. -/
theorem path_inOrder (h : Ready m p) (data : List UInt8) (seq : BitVec 32)
    (hp : m.heap p = some t)
    (hmove : Work x ⟨m, none⟩ ⟨m.log (.onReceive p t.onReceive data), some (p, seq)⟩) :
    let m' := (m.deliverData x.ctx p data).modify p (setRcvNxt seq)
    WorkPath x ⟨m, none⟩ ⟨(m'.deliverOooData x.ctx p (m'.oooLength p)).on p
      (·.acknowledgeData x.ctx.toEnv), none⟩ := by
  intro m'
  have hdeliver := path_deliver h data seq hp hmove
  have hready : Ready m' p := h.work hdeliver
  have hooo := path_deliverOooData (x := x) hready (m'.oooLength p)
  exact (hdeliver.trans hooo).trans
    (path_on_active (hready.work hooo) fun u hact => .acknowledgeData _ _ hact)

theorem path_handleData (h : Ready m p) {seg : TCPSegment}
    (hx : x.seg = some seg) : WorkPath x ⟨m, none⟩ ⟨m.handleData x.ctx p seg, none⟩ := by
  unfold handleData
  obtain ⟨t, hp, hact⟩ := h.heap
  rw [hp]
  cases hold : seqLt seg.seqNum t.rcvNxt with
  | true =>
    simp only [hold, if_true, Bool.true_and, decide_eq_true_eq]
    split
    · exact .refl
    rename_i hdata
    split
    · exact .refl
    split
    · exact .refl
    rename_i hskip
    exact path_inOrder h _ _ hp (.deliver _ hx hp hact (Nat.pos_of_ne_zero hdata)
      (Nat.not_le.mp hskip) (Or.inl ⟨hold, rfl⟩))
  | false =>
    simp only [hold, Bool.false_eq_true, if_false, Bool.false_and, List.drop_zero]
    split
    · exact .refl
    rename_i hdata
    split
    · exact .refl
    split
    · rename_i hstart
      have hmove : Work x ⟨m, none⟩ ⟨m.log (.onReceive p t.onReceive (seg.data.drop 0)), _⟩ :=
        .deliver 0 hx hp hact (Nat.pos_of_ne_zero hdata) (Nat.pos_of_ne_zero hdata)
          (Or.inr ⟨hstart, rfl⟩)
      exact path_inOrder h _ _ hp hmove
    · have hstash : WorkPath x ⟨m, none⟩
          ⟨m.modify p (addToOooQueue seg.seqNum seg.data), none⟩ := by
        rw [modify_of_heap hp]
        exact .single (.stash hx hp hact)
      exact hstash.trans (path_on_active (h.work hstash) fun u hact => .ack _ _ (Or.inl hact))

/-! ## The handlers -/

theorem path_handleAck (h : Ready m p) (env : Env) {seg : TCPSegment} (hx : x.seg = some seg) :
    WorkPath x ⟨m, none⟩ ⟨m.handleAck env p seg, none⟩ := by
  unfold handleAck
  split
  · rename_i hack
    exact path_on_active h fun u hact => .processAck env _ seg hx hack hact
  · exact .refl

theorem path_handlePayload (h : Ready m p) {seg : TCPSegment}
    (hx : x.seg = some seg) : WorkPath x ⟨m, none⟩ ⟨m.handlePayload x.ctx p seg, none⟩ := by
  unfold handlePayload
  split
  · exact path_handleData h hx
  · exact .refl

/-- The part the handlers share: the acknowledgement, then the data. -/
theorem path_intake (h : Ready m p) {seg : TCPSegment} (hx : x.seg = some seg) :
    WorkPath x ⟨m, none⟩ ⟨(m.handleAck x.ctx.toEnv p seg).handlePayload x.ctx p seg, none⟩ :=
  have hack := path_handleAck (x := x) h x.ctx.toEnv hx
  hack.trans (path_handlePayload (h.work hack) hx)

omit [ICongestionControl σ] in
theorem finInOrder_iff (hp : m.heap p = some t) (seg : TCPSegment) :
    m.finInOrder p seg = true ↔ seg.isFin = true ∧ seg.finSeq = t.rcvNxt := by
  rw [finInOrder, test_of_heap hp, Bool.and_eq_true, beq_iff_eq]

omit [ICongestionControl σ] in
theorem InState.ready (hin : m.InState p s) (h : m.WellFormed) (hact : s.isActive = true) :
    Ready m p := ⟨h, s, hact, hin⟩

/-- Taking in a FIN. -/
theorem path_receiveFin (hin : m.InState p s) (env : Env) {seg : TCPSegment} (hx : x.seg = some seg)
    (hfin : m.finInOrder p seg = true) {handler next : TCPState} (hedge : FinEdge handler s next) :
    Path o x ⟨m, none⟩ ⟨m.receiveFin env p handler next, none⟩ ∧
      (m.receiveFin env p handler next).InState p next := by
  obtain ⟨t, hp, hk, rfl⟩ := hin
  obtain ⟨hfin, hseq⟩ := (finInOrder_iff hp seg).mp hfin
  refine ⟨.single (.receiveFin env hx hp hfin hseq hedge), ?_⟩
  rw [receiveFin_of_heap hp]
  exact ⟨_, store_heap_self m ⟨p, _, _⟩, hk, rfl⟩

/-- Behind its data, a segment in `ESTABLISHED` can bring a FIN. -/
theorem path_finEstablished (h : m.WellFormed) (hin : m.InState p s)
    (hs : TCPState.established.Reaches s) {seg : TCPSegment} (hx : x.seg = some seg) :
    Path o x ⟨m, none⟩ ⟨if m.finInOrder p seg then
      (m.receiveFin x.ctx.toEnv p .established .closeWait).notifyClose x.ctx p else m, none⟩ := by
  split
  · rename_i hfin
    have hedge : FinEdge .established s .closeWait := by
      rcases hs with rfl | ⟨-, rfl⟩
      · exact .established
      · exact .overtaken
    have hpath := (path_receiveFin (o := o) hin x.ctx.toEnv hx hfin hedge).1
    exact hpath.trans (path_notifyClose (hpath.wellFormed h) p).path
  · exact .refl

theorem path_handleEstablished (h : Ready m p) (hin : m.InState p s)
    (hs : TCPState.established.Reaches s) {seg : TCPSegment}
    (hx : x.seg = some seg) : Path o x ⟨m, none⟩ ⟨m.handleEstablished x.ctx p seg, none⟩ := by
  have hwork := path_intake h hx
  obtain ⟨s', hreach, hin'⟩ := hwork.kept h.wellFormed hin
    (TCPState.ne_synSent_of_isActive (hs.isActive rfl))
  exact hwork.path.trans (path_finEstablished (h.work hwork).wellFormed hin' (hs.trans hreach) hx)

/-! ### TIME_WAIT -/

omit [ICongestionControl σ] in
theorem endTcb_heap_ne {q : Ptr} (hne : q ≠ p) (cause : EndCause) :
    (m.endTcb p cause).heap q = m.heap q := by
  cases hp : m.heap p with
  | none => rw [endTcb, on_of_freed hp]
  | some t =>
    rw [endTcb_of_heap hp]
    exact store_heap_ne m hne

theorem path_expireTimeWait (h : m.WellFormed) {cause : EndCause}
    (hcause : cause = .timeWaitExpired ∨ cause = .timeWaitEvicted) (tuple : TCPTuple) :
    Path o x ⟨m, none⟩ ⟨m.expireTimeWait cause tuple, none⟩ ∧
      ∀ q u, (m.expireTimeWait cause tuple).heap q = some u → m.heap q = some u := by
  unfold expireTimeWait
  split
  · exact ⟨.refl, fun _ _ => id⟩
  rename_i p hfind
  obtain ⟨t, hp, rfl, -⟩ := h.find hfind
  rw [test_of_heap hp]
  split
  · rename_i hs
    have hs : t.state = .timeWait := by simpa using hs
    rw [h.deleteTcb_endTcb hp (h.findTcb_iff.mp hfind)]
    refine ⟨.single (.timeWaitEnd hp hs hcause), fun q u hu => ?_⟩
    rcases eq_or_ne q p with rfl | hne
    · have hfind' : (m.endTcb q cause).findTcb t.tTuple = some q := by
        rw [endTcb_of_heap hp]
        exact hfind
      rw [eraseConnection, hfind'] at hu
      exact absurd rfl ((free_heap _ q q u).mp hu).1
    · rw [← endTcb_heap_ne hne cause]
      exact eraseConnection_heap_some hu
  · exact ⟨.refl, fun _ _ => id⟩

theorem path_evictTimeWait (h : m.WellFormed) (l : List (Nat × TCPTuple)) :
    Path o x ⟨m, none⟩ ⟨m.evictTimeWait l, none⟩ ∧
      ∀ q u, (m.evictTimeWait l).heap q = some u → m.heap q = some u := by
  induction l generalizing m with
  | nil => exact ⟨.single (.timeWaitList m []), fun _ _ => id⟩
  | cons entry rest ih =>
    unfold evictTimeWait
    split
    · obtain ⟨hpath, hheap⟩ := path_expireTimeWait (o := o) (x := x) h (Or.inr rfl) entry.2
      obtain ⟨hpath', hheap'⟩ := ih (hpath.wellFormed h)
      exact ⟨hpath.trans hpath', fun q u hu => hheap q u (hheap' q u hu)⟩
    · exact ⟨.single (.timeWaitList m _), fun _ _ => id⟩

theorem path_startTimeWaitTimer (h : m.WellFormed) (hin : m.InState p .timeWait) (env : Env) :
    Path o x ⟨m, none⟩ ⟨m.startTimeWaitTimer env p, none⟩ := by
  unfold startTimeWaitTimer
  obtain ⟨hpath, hheap⟩ := path_evictTimeWait (o := o) (x := x) h m.timeWaitList
  obtain ⟨t, hp, -, hs⟩ := hin
  generalize m.evictTimeWait m.timeWaitList = m₁ at hpath hheap
  dsimp only
  split
  · exact hpath
  · rename_i u hu
    have hut := hheap p u hu
    rw [hp] at hut
    cases hut
    let m₂ : TCPConnectionManager σ :=
      { m₁ with timeWaitList := m₁.timeWaitList ++ [(env.now + timeWaitDuration, t.tTuple)] }
    have hu₂ : m₂.heap p = some t := hu
    show Path o x ⟨m, none⟩ ⟨m₂.modify p releaseBuffers, none⟩
    rw [modify_of_heap hu₂]
    exact (hpath.tail (.timeWaitList m₁ _)).tail (.release hu₂ hs)

theorem path_restartTimeWaitTimer (h : m.WellFormed) (hin : m.InState p .timeWait) (env : Env) :
    Path o x ⟨m, none⟩ ⟨m.restartTimeWaitTimer env p, none⟩ := by
  unfold restartTimeWaitTimer
  split
  · exact .refl
  · split
    · exact .single (.timeWaitList m _)
    · exact path_startTimeWaitTimer h hin env

/-! ### The handshake -/

omit [ICongestionControl σ] in
theorem on_store {c : Conn σ} (hptr : c.ptr = p) (f : Conn σ → Conn σ)
    (hf : (f c).ptr = p) : (m.store c).on p f = m.store (f c) := by
  subst hptr
  rw [on_of_heap (store_heap_self m c)]
  exact store_store m c (f c) hf.symm

/-- The end of the handshake is a move. -/
theorem move_establish (h : m.WellFormed) {seg : TCPSegment} (hx : x.seg = some seg)
    (hp : m.heap p = some t) (hack : seg.isAck = true) {t' : TCB σ} {c : Conn σ}
    (hopening : Handshake seg t t') (hpath : Conn.Path x.seg ⟨p, t', m.trace⟩ c)
    (huna : c.tcb.sndUna = t.iss + 1) :
    Move o x ⟨m, none⟩ ⟨((m.store c).establish p).log (.onConnect p t.onConnect 0), none⟩ := by
  have hiss : c.tcb.iss = t.iss := congrArg TCBIdentity.iss (hopening.path_identity hpath)
  -- the SYN has left the queue
  have hq : c.tcb.retransmitQueue = [] := by
    refine ((hopening.path_opening hpath (h.shape p t hp)).acked ?_).2
    rw [huna, hiss]
    intro heq
    bv_omega
  exact .establish hx hp hack hopening hpath (hopening.path_state hpath) huna hq

/-- The connection behind its handshake. -/
theorem establish_inState (h : m.WellFormed) {seg : TCPSegment} (hp : m.heap p = some t)
    {y : Option TCPSegment} {t' : TCB σ} {c : Conn σ} (hopening : Handshake seg t t')
    (hpath : Conn.Path y ⟨p, t', m.trace⟩ c) :
    ((m.store c).establish p).heap p = some { c.tcb with state := .established } ∧
      ((m.store c).establish p).InState p .established := by
  have htuple : c.tcb.tTuple = t.tTuple :=
    congrArg TCBIdentity.tTuple (hopening.path_identity hpath)
  have hk : (t.tTuple, p) ∈ m.connections := by
    refine h.mem_connections hp ?_ ?_ <;>
    · rcases hopening.opening with hs | hs <;> rw [hs] <;> decide
  have hest : ((m.store c).establish p).heap p = some { c.tcb with state := .established } := by
    rw [establish_store hpath.ptr]
    exact store_heap_self m ⟨p, { c.tcb with state := .established }, _⟩
  refine ⟨hest, _, hest, ?_, rfl⟩
  rw [establish_store hpath.ptr]
  exact htuple ▸ hk

/-- The end of the handshake, with the application's answer. -/
theorem path_establish (h : m.WellFormed) {seg : TCPSegment} (hx : x.seg = some seg)
    (hp : m.heap p = some t) (hack : seg.isAck = true) {t' : TCB σ} {c : Conn σ}
    (hopening : Handshake seg t t') (hpath : Conn.Path x.seg ⟨p, t', m.trace⟩ c)
    (huna : c.tcb.sndUna = t.iss + 1) :
    Path o x ⟨m, none⟩ ⟨((m.store c).establish p).notifyConnect x.ctx p 0, none⟩ ∧
      Ready (((m.store c).establish p).notifyConnect x.ctx p 0) p ∧
      ∃ s, TCPState.established.Reaches s ∧
        (((m.store c).establish p).notifyConnect x.ctx p 0).InState p s := by
  have hid := hopening.path_identity hpath
  have hmove : Move o x ⟨m, none⟩ ⟨((m.store c).establish p).log (.onConnect p t.onConnect 0), none⟩ :=
    move_establish h hx hp hack hopening hpath huna
  obtain ⟨hest, hin⟩ := establish_inState h hp hopening hpath
  have hwf := h.move hmove
  have hinvoke : WorkPath x
      ⟨((m.store c).establish p).log (.onConnect p t.onConnect 0), none⟩
      ⟨((m.store c).establish p).notifyConnect x.ctx p 0, none⟩ := by
    rw [notifyConnect, hest]
    have hcb : c.tcb.onConnect = t.onConnect := congrArg TCBIdentity.onConnect hid
    dsimp only
    rw [hcb]
    have hwf' : ((m.store c).establish p).WellFormed := hwf.congr rfl rfl rfl rfl rfl
    exact path_invoke hwf' _ _ none
  have hready : Ready (((m.store c).establish p).log (.onConnect p t.onConnect 0)) p :=
    ⟨hwf, .established, rfl, hin⟩
  exact ⟨.head hmove hinvoke.path, hready.work hinvoke,
    hinvoke.kept hwf (p := p) (a := .established) hin (by decide)⟩

/-- The SYN+ACK `handle_syn_sent` waits for: what the handler makes of the connection
before it is established. -/
theorem handleSynSent_synAck (h : m.WellFormed) (hp : m.heap p = some t) (hs : t.state = .synSent)
    {seg : TCPSegment} (hx : x.seg = some seg) (hsyn : seg.isSyn = true) (hack : seg.isAck = true)
    (hnum : seg.ackNum = t.iss + 1) :
    let c := ((Conn.mk p (receiveSyn seg t) m.trace).processAck x.ctx.toEnv seg.ackNum
      seg.window).sendSegment x.ctx.toEnv TCPFlags.ack []
    Conn.Path x.seg ⟨p, receiveSyn seg t, m.trace⟩ c ∧ c.tcb.sndUna = t.iss + 1 ∧
      m.handleSynSent x.ctx p seg = ((m.store c).establish p).notifyConnect x.ctx p 0 := by
  let c₀ : Conn σ := ⟨p, receiveSyn seg t, m.trace⟩
  have hprocess : Conn.Path x.seg c₀ (c₀.processAck x.ctx.toEnv seg.ackNum seg.window) := by
    refine Conn.path_processAck _ _ hx hack ?_ (fun _ => hnum) (fun hr => ?_)
    · show t.state ≠ .listen
      rw [hs]
      decide
    · have hr : t.state = .synRcvd := hr
      rw [hs] at hr
      cases hr
  have hsynced : (c₀.processAck x.ctx.toEnv seg.ackNum seg.window).tcb.Synced := by
    refine Or.inr ?_
    rw [hprocess.receive]
    rfl
  have hpath : Conn.Path x.seg c₀ _ := hprocess.tail (.ack x.ctx.toEnv _ hsynced)
  refine ⟨hpath, ?_, ?_⟩
  · rw [Conn.sendSegment_sndUna, Conn.processAck_sndUna, show c₀.tcb.sndUna = t.sndUna from rfl,
      h.unacked p t hp (Or.inl hs), hnum, seqGt_succ, if_pos rfl]
    show t.state ≠ .listen
    rw [hs]
    decide
  · have hflags : (seg.isSyn && seg.isAck) = true := by rw [hsyn, hack]; rfl
    have hmatch : (seg.ackNum != t.iss + 1) = false := by rw [hnum]; exact bne_self_eq_false _
    rw [handleSynSent, if_pos hflags, test_of_heap hp, hmatch, if_neg Bool.false_ne_true]
    dsimp only
    rw [modify_of_heap hp, on_store rfl _ hprocess.ptr, on_store hprocess.ptr _ hpath.ptr]

theorem path_handleSynSent (h : m.WellFormed) (hin : m.InState p .synSent)
    {seg : TCPSegment} (hx : x.seg = some seg) :
    Path o x ⟨m, none⟩ ⟨m.handleSynSent x.ctx p seg, none⟩ := by
  obtain ⟨t, hp, hk, hs⟩ := hin
  by_cases hflags : (seg.isSyn && seg.isAck) = true
  · obtain ⟨hsyn, hack⟩ := Bool.and_eq_true _ _ ▸ hflags
    by_cases hnum : seg.ackNum = t.iss + 1
    · obtain ⟨hpath, huna, heq⟩ := handleSynSent_synAck h hp hs hx hsyn hack hnum
      rw [heq]
      exact (path_establish h hx hp hack (.synSent hs hsyn hnum) hpath huna).1
    · rw [handleSynSent, if_pos hflags, test_of_heap hp, if_pos (bne_iff_ne.mpr hnum)]
      exact .single (.reply m seg hx)
  · rw [handleSynSent, if_neg hflags]
    split
    · rename_i hflags
      rw [Bool.and_eq_true] at hflags
      have hnack : seg.isAck = false := by simpa using hflags.2
      dsimp only
      rw [modify_of_heap hp, on_store rfl _ (by simp)]
      exact .single (.simultaneousOpen x.ctx.toEnv hx hp hs hflags.1 hnack)
    · exact .refl

/-- The acknowledgement `handle_syn_rcvd` waits for. -/
theorem handleSynRcvd_ack (h : m.WellFormed) (hp : m.heap p = some t) (hs : t.state = .synRcvd)
    {seg : TCPSegment} (hx : x.seg = some seg) (hrst : seg.isRst = false) (hack : seg.isAck = true)
    (hgt : seqGt seg.ackNum t.sndUna = true) (hle : seqGt seg.ackNum t.sndNxt = false) :
    let c := (Conn.mk p t m.trace).processAck x.ctx.toEnv seg.ackNum seg.window
    Conn.Path x.seg ⟨p, t, m.trace⟩ c ∧ c.tcb.sndUna = t.iss + 1 ∧
      m.handleSynRcvd x.ctx p seg = (let m' := ((m.store c).establish p).notifyConnect x.ctx p 0
        if 0 < seg.dataLength then m'.handleEstablished x.ctx p seg else m') := by
  have huna : t.sndUna = t.iss := h.unacked p t hp (Or.inr hs)
  have hnum : seg.ackNum = t.iss + 1 := by
    refine eq_succ_of_seqGt (huna ▸ hgt) ?_
    rw [← ((h.shape p t hp).rcvd hs).1.sndNxt]
    exact hle
  have hlisten : t.state ≠ .listen := by rw [hs]; decide
  refine ⟨Conn.path_processAck _ _ hx hack hlisten (fun _ => hnum) (fun _ => hle), ?_, ?_⟩
  · rw [Conn.processAck_sndUna _ _ _ _ hlisten, hnum, huna, seqGt_succ, if_pos rfl]
  · have hrange : (!seqGt seg.ackNum t.sndUna || seqGt seg.ackNum t.sndNxt) = false := by
      rw [hgt, hle]
      rfl
    rw [handleSynRcvd, if_neg (by rw [hrst]; exact Bool.false_ne_true), hack, Bool.not_true,
      if_neg Bool.false_ne_true, test_of_heap hp, hrange, if_neg Bool.false_ne_true]
    dsimp only
    rw [on_of_heap hp]

theorem path_handleSynRcvd (h : m.WellFormed) (hin : m.InState p .synRcvd)
    {seg : TCPSegment} (hx : x.seg = some seg) (hrst : seg.isRst = false) :
    Path o x ⟨m, none⟩ ⟨m.handleSynRcvd x.ctx p seg, none⟩ := by
  obtain ⟨t, hp, hk, hs⟩ := hin
  have hnotRst : ¬ seg.isRst = true := by rw [hrst]; exact Bool.false_ne_true
  cases hack : seg.isAck with
  | false =>
    rw [handleSynRcvd, if_neg hnotRst, hack, Bool.not_false, if_pos rfl]
  | true =>
    by_cases hrange : seqGt seg.ackNum t.sndUna = true ∧ seqGt seg.ackNum t.sndNxt = false
    · obtain ⟨hprocess, huna, heq⟩ :=
        handleSynRcvd_ack h hp hs hx hrst hack hrange.1 hrange.2
      obtain ⟨hpath, hready, s, hreach, hin'⟩ :=
        path_establish h hx hp hack (.synRcvd hs hrange.1 hrange.2) hprocess huna
      rw [heq]
      dsimp only
      split
      · exact hpath.trans (path_handleEstablished hready hin' hreach hx)
      · exact hpath
    · have houtside : (!seqGt seg.ackNum t.sndUna || seqGt seg.ackNum t.sndNxt) = true := by
        cases hgt : seqGt seg.ackNum t.sndUna <;> cases hle : seqGt seg.ackNum t.sndNxt <;>
          simp_all
      rw [handleSynRcvd, if_neg hnotRst, hack, Bool.not_true, if_neg Bool.false_ne_true,
        test_of_heap hp, if_pos houtside]
      exact .single (.reply m seg hx)

/-! ### Closing -/

/-- Behind the shared part, a connection whose FIN is out is in the same state. -/
theorem path_intake_inState (h : Ready m p) (hin : m.InState p s) (hcan : s.canSend = false)
    (hact : s.isActive = true) {seg : TCPSegment} (hx : x.seg = some seg) :
    Ready ((m.handleAck x.ctx.toEnv p seg).handlePayload x.ctx p seg) p ∧
      ((m.handleAck x.ctx.toEnv p seg).handlePayload x.ctx p seg).InState p s := by
  have hwork := path_intake h hx
  obtain ⟨s', hreach, hin'⟩ := hwork.kept h.wellFormed hin (TCPState.ne_synSent_of_isActive hact)
  exact ⟨h.work hwork, hreach.eq hcan ▸ hin'⟩

theorem path_handleAck_inState (h : Ready m p) (hin : m.InState p s) (hcan : s.canSend = false)
    (hact : s.isActive = true) (env : Env) {seg : TCPSegment} (hx : x.seg = some seg) :
    Ready (m.handleAck env p seg) p ∧ (m.handleAck env p seg).InState p s := by
  have hwork := path_handleAck h env hx
  obtain ⟨s', hreach, hin'⟩ := hwork.kept h.wellFormed hin (TCPState.ne_synSent_of_isActive hact)
  exact ⟨h.work hwork, hreach.eq hcan ▸ hin'⟩

/-- The local FIN is acknowledged. -/
theorem path_finAcked (h : m.WellFormed) (hin : m.InState p s) {next : TCPState}
    (hedge : AckEdge s next) : Path o x ⟨m, none⟩ ⟨m.on p (·.setState next), none⟩ ∧
      (m.on p (·.setState next)).WellFormed ∧ (m.on p (·.setState next)).InState p next := by
  obtain ⟨t, hp, hk, rfl⟩ := hin
  have hmove : Move o x ⟨m, none⟩ ⟨m.store ((Conn.mk p t m.trace).setState next), none⟩ :=
    .finAcked hp hedge
  rw [on_of_heap hp]
  exact ⟨.single hmove, h.move hmove, _, store_heap_self m _, hk, rfl⟩

/-- Behind its data, a segment in `FIN_WAIT_1` can bring a FIN, and have acknowledged
the one of this side. -/
theorem path_finFinWait1 (h : m.WellFormed) (hin : m.InState p .finWait1) (ourFinAcked : Bool)
    {seg : TCPSegment} (hx : x.seg = some seg) :
    Path o x ⟨m, none⟩ ⟨if m.finInOrder p seg then
      if ourFinAcked then
        (m.receiveFin x.ctx.toEnv p .finWait1 .timeWait).startTimeWaitTimer x.ctx.toEnv p
      else m.receiveFin x.ctx.toEnv p .finWait1 .closing
    else if ourFinAcked then m.on p (·.setState .finWait2)
    else m, none⟩ := by
  split
  · rename_i hfin
    split
    · obtain ⟨hpath, hin'⟩ := path_receiveFin (o := o) (x := x) hin x.ctx.toEnv hx hfin .finWait1
      exact hpath.trans (path_startTimeWaitTimer (hpath.wellFormed h) hin' x.ctx.toEnv)
    · exact (path_receiveFin hin x.ctx.toEnv hx hfin .closing).1
  · split
    · exact (path_finAcked h hin .finWait1).1
    · exact .refl

theorem path_handleFinWait1 (h : m.WellFormed) (hin : m.InState p .finWait1)
    {seg : TCPSegment} (hx : x.seg = some seg) :
    Path o x ⟨m, none⟩ ⟨m.handleFinWait1 x.ctx p seg, none⟩ := by
  have hready : Ready m p := hin.ready h rfl
  obtain ⟨hready', hin'⟩ := path_intake_inState hready hin rfl rfl hx
  exact (path_intake hready hx).path.trans (path_finFinWait1 hready'.wellFormed hin' _ hx)

/-- Behind its data, a segment in `FIN_WAIT_2` can bring a FIN. -/
theorem path_finFinWait2 (h : m.WellFormed) (hin : m.InState p .finWait2)
    {seg : TCPSegment} (hx : x.seg = some seg) :
    Path o x ⟨m, none⟩ ⟨if m.finInOrder p seg then
      (m.receiveFin x.ctx.toEnv p .finWait2 .timeWait).startTimeWaitTimer x.ctx.toEnv p
    else m, none⟩ := by
  split
  · rename_i hfin
    obtain ⟨hpath, hin'⟩ := path_receiveFin (o := o) (x := x) hin x.ctx.toEnv hx hfin .finWait2
    exact hpath.trans (path_startTimeWaitTimer (hpath.wellFormed h) hin' x.ctx.toEnv)
  · exact .refl

theorem path_handleFinWait2 (h : m.WellFormed) (hin : m.InState p .finWait2)
    {seg : TCPSegment} (hx : x.seg = some seg) :
    Path o x ⟨m, none⟩ ⟨m.handleFinWait2 x.ctx p seg, none⟩ := by
  have hready : Ready m p := hin.ready h rfl
  obtain ⟨hready', hin'⟩ := path_intake_inState hready hin rfl rfl hx
  exact (path_intake hready hx).path.trans (path_finFinWait2 hready'.wellFormed hin' hx)

/-- A segment in `CLOSING` can have acknowledged the FIN. -/
theorem path_ackedClosing (h : m.WellFormed) (hin : m.InState p .closing) (acked : Bool) :
    Path o x ⟨m, none⟩ ⟨if acked then
      (m.on p (·.setState .timeWait)).startTimeWaitTimer x.ctx.toEnv p else m, none⟩ := by
  split
  · obtain ⟨hpath, hwf, hin'⟩ := path_finAcked (o := o) (x := x) h hin .closing
    exact hpath.trans (path_startTimeWaitTimer hwf hin' x.ctx.toEnv)
  · exact .refl

theorem path_handleClosing (h : m.WellFormed) (hin : m.InState p .closing)
    {seg : TCPSegment} (hx : x.seg = some seg) :
    Path o x ⟨m, none⟩ ⟨m.handleClosing x.ctx p seg, none⟩ := by
  have hready : Ready m p := hin.ready h rfl
  obtain ⟨hready', hin'⟩ := path_handleAck_inState hready hin rfl rfl x.ctx.toEnv hx
  exact (path_handleAck hready x.ctx.toEnv hx).path.trans
    (path_ackedClosing hready'.wellFormed hin' _)

/-- A segment in `LAST_ACK` can have acknowledged the FIN. -/
theorem path_ackedLastAck (h : m.WellFormed) (hin : m.InState p .lastAck) (acked : Bool) :
    Path o x ⟨m, none⟩ ⟨if acked then (m.endTcb p .lastAck).deleteTcb p else m, none⟩ := by
  split
  · obtain ⟨t, hp, hk, hs⟩ := hin
    rw [h.deleteTcb_endTcb hp hk]
    exact .single (.lastAck hp hs)
  · exact .refl

theorem path_handleLastAck (h : m.WellFormed) (hin : m.InState p .lastAck)
    {seg : TCPSegment} (hx : x.seg = some seg) :
    Path o x ⟨m, none⟩ ⟨m.handleLastAck x.ctx p seg, none⟩ := by
  have hready : Ready m p := hin.ready h rfl
  obtain ⟨hready', hin'⟩ := path_handleAck_inState hready hin rfl rfl x.ctx.toEnv hx
  exact (path_handleAck hready x.ctx.toEnv hx).path.trans
    (path_ackedLastAck hready'.wellFormed hin' _)

theorem path_handleTimeWait (h : m.WellFormed) (hin : m.InState p .timeWait)
    {seg : TCPSegment} : Path o x ⟨m, none⟩ ⟨m.handleTimeWait x.ctx p seg, none⟩ := by
  unfold handleTimeWait
  split
  · have hready : Ready m p := hin.ready h rfl
    have hwork : WorkPath x ⟨m, none⟩ ⟨m.on p (·.sendSegment x.ctx.toEnv TCPFlags.ack []), none⟩ :=
      path_on_active hready fun t hact => .ack _ _ (Or.inl hact)
    obtain ⟨s', hreach, hin'⟩ := hwork.kept h hin (by decide)
    have heq : s' = .timeWait := hreach.eq rfl
    subst heq
    exact hwork.path.trans
      (path_restartTimeWaitTimer (hwork.wellFormed h) hin' x.ctx.toEnv)
  · exact .refl

/-! ### Listening and resetting -/

omit [ICongestionControl σ] in
theorem endTcb_tables (cause : EndCause) : (m.endTcb p cause).connections = m.connections ∧
    (m.endTcb p cause).listeners = m.listeners ∧ (m.endTcb p cause).localIp = m.localIp := by
  cases hp : m.heap p with
  | none =>
    rw [endTcb, on_of_freed hp]
    exact ⟨rfl, rfl, rfl⟩
  | some t =>
    rw [endTcb_of_heap hp]
    exact ⟨rfl, rfl, rfl⟩

/-- A SYN opens a connection under a tuple that is free. -/
theorem accept_eq (env : Env) {seg : TCPSegment} {l : TCB σ} {k : TCPTuple}
    (hk : k = ⟨m.localIp, seg.srcAddr, seg.dstPort, seg.srcPort⟩) (hfree : m.findTcb k = none) :
    ((m.createTcb env k).2.modify (m.createTcb env k).1
        (inherit l seg (env.isn (m.createTcb env k).1 k))).on (m.createTcb env k).1
          (fun c => (c.sendSegment env (TCPFlags.syn ||| TCPFlags.ack) []).setState .synRcvd) =
      m.openWith env (TCPFlags.syn ||| TCPFlags.ack) .synRcvd (m.acceptTcb env k l seg) := by
  subst hk
  rw [createTcb_of_free env hfree, modify_spawn _ _ rfl,
    show [Event.created m.nextAddr (⟨m.localIp, seg.srcAddr, seg.dstPort, seg.srcPort⟩ : TCPTuple)]
      = [.created m.nextAddr (m.acceptTcb env ⟨m.localIp, seg.srcAddr, seg.dstPort, seg.srcPort⟩
          l seg).tTuple] from rfl]
  exact openWith_eq env .synRcvd (Or.inr rfl)

/-- Overwriting an entry is ending its connection, then filing the new one. -/
theorem createTcb_of_found {k : TCPTuple} {old : Ptr} (env : Env)
    (hold : m.findTcb k = some old) :
    ((m.endTcb old .replaced).eraseConnection k).findTcb k = none ∧
      m.createTcb env k = ((m.endTcb old .replaced).eraseConnection k).createTcb env k := by
  have hnone : ((m.endTcb old .replaced).eraseConnection k).findTcb k = none := by
    have hfind : (m.endTcb old .replaced).findTcb k = some old := by
      rw [findTcb, (endTcb_tables _).1]
      exact hold
    rw [eraseConnection, hfind, findTcb, List.lookup_eq_none_iff]
    rintro ⟨k', q⟩ hq
    exact bne_iff_ne.mpr (Table.mem_erase.mp hq).2.symm
  refine ⟨hnone, ?_⟩
  rw [createTcb_of_free env hnone]
  simp only [createTcb, hold]
  rfl

/-- `handle_listen` with a SYN, under a tuple that is free. -/
theorem handleListen_of_free (h : m.WellFormed) {lp : Ptr} {seg : TCPSegment} (env : Env)
    (hsyn : seg.isSyn = true) (hnack : seg.isAck = false)
    (hlisten : m.findListeningTcb seg.dstPort = some lp) {l : TCB σ} (hlp : m.heap lp = some l)
    (hlimit : m.connections.length < maxConnections)
    (hfree : m.findTcb ⟨m.localIp, seg.srcAddr, seg.dstPort, seg.srcPort⟩ = none) :
    m.handleListen env lp seg = m.openWith env (TCPFlags.syn ||| TCPFlags.ack) .synRcvd
      (m.acceptTcb env ⟨m.localIp, seg.srcAddr, seg.dstPort, seg.srcPort⟩ l seg) := by
  simp only [handleListen, hlp, hsyn, hnack, Bool.not_true, Bool.or_self, Bool.false_eq_true,
    if_false, Nat.not_le.mpr hlimit, h.listeningPort hlisten hlp]
  exact accept_eq env rfl hfree

omit [ICongestionControl σ] in
/-- What is left when the entry under the SYN's tuple is overwritten: the listener is
still there, and the tuple is free. -/
theorem replaced_tables (h : m.WellFormed) {lp old : Ptr} {port : UInt16} {k : TCPTuple}
    (hlisten : m.findListeningTcb port = some lp) {l : TCB σ} (hlp : m.heap lp = some l)
    (hlimit : m.connections.length < maxConnections) (hold : m.findTcb k = some old) :
    ((m.endTcb old .replaced).eraseConnection k).heap lp = some l ∧
      ((m.endTcb old .replaced).eraseConnection k).findListeningTcb port = some lp ∧
      ((m.endTcb old .replaced).eraseConnection k).connections.length < maxConnections ∧
      ((m.endTcb old .replaced).eraseConnection k).localIp = m.localIp := by
  have hne : lp ≠ old := by
    rintro rfl
    exact h.disjoint _ _ _ (h.findTcb_iff.mp hold) (h.findListeningTcb_iff.mp hlisten)
  obtain ⟨hconn, hlist, hip⟩ := endTcb_tables (m := m) (p := old) .replaced
  have hfind : (m.endTcb old .replaced).findTcb k = some old := by
    rw [findTcb, hconn]
    exact hold
  refine ⟨?_, ?_, ?_, ?_⟩
  · rw [eraseConnection_heap hfind hne, endTcb_heap_ne hne, hlp]
  · rw [eraseConnection, hfind, findListeningTcb]
    exact (congrArg (List.lookup port) hlist).trans hlisten
  · rw [eraseConnection, hfind]
    exact Nat.lt_of_le_of_lt (List.length_filter_le ..) (hconn ▸ hlimit)
  · rw [eraseConnection, hfind]
    exact hip

/-- Where the tuple is taken, its connection ends first. -/
theorem handleListen_of_found (h : m.WellFormed) {lp old : Ptr} {seg : TCPSegment} (env : Env)
    (hsyn : seg.isSyn = true) (hnack : seg.isAck = false)
    (hlisten : m.findListeningTcb seg.dstPort = some lp) {l : TCB σ} (hlp : m.heap lp = some l)
    (hlimit : m.connections.length < maxConnections) {k : TCPTuple}
    (hk : k = ⟨m.localIp, seg.srcAddr, seg.dstPort, seg.srcPort⟩) (hold : m.findTcb k = some old) :
    m.handleListen env lp seg = ((m.endTcb old .replaced).eraseConnection k).openWith env
      (TCPFlags.syn ||| TCPFlags.ack) .synRcvd
      (((m.endTcb old .replaced).eraseConnection k).acceptTcb env k l seg) := by
  obtain ⟨hfree, heq⟩ := createTcb_of_found env hold
  obtain ⟨-, -, -, hip⟩ := replaced_tables h hlisten hlp hlimit hold
  have hport : l.tTuple.localPort = seg.dstPort := h.listeningPort hlisten hlp
  subst hk
  simp only [handleListen, hlp, hsyn, hnack, Bool.not_true, Bool.or_self, Bool.false_eq_true,
    if_false, Nat.not_le.mpr hlimit, hport, heq]
  exact accept_eq env (by rw [hip]) hfree

theorem path_handleListen (h : m.WellFormed) {lp : Ptr} {seg : TCPSegment} (env : Env)
    (hx : x.seg = some seg) (hrst : seg.isRst = false) (hnew : m.findTcb seg.tuple = none)
    (hlisten : m.findListeningTcb seg.dstPort = some lp) {l : TCB σ} (hlp : m.heap lp = some l)
    (hs : l.state = .listen) : Path m x ⟨m, none⟩ ⟨m.handleListen env lp seg, none⟩ := by
  by_cases hflags : (!seg.isSyn || seg.isAck) = true
  · simp only [handleListen, hlp, hflags, if_true]
    exact .refl
  have hflags' : seg.isSyn = true ∧ seg.isAck = false := by simpa using hflags
  by_cases hlimit : maxConnections ≤ m.connections.length
  · simp only [handleListen, hlp, hflags, hlimit, if_true]
    exact .refl
  have hlimit' : m.connections.length < maxConnections := Nat.not_le.mp hlimit
  cases hold : m.findTcb ⟨m.localIp, seg.srcAddr, seg.dstPort, seg.srcPort⟩ with
  | none =>
    rw [handleListen_of_free h env hflags'.1 hflags'.2 hlisten hlp hlimit' hold]
    exact .single (.accept env hx hflags'.1 hflags'.2 hlisten hlp hlimit' hold)
  | some old =>
    obtain ⟨hlp', hlisten', hlength, hip⟩ := replaced_tables h hlisten hlp hlimit' hold
    have hfree := (createTcb_of_found env hold).1
    rw [handleListen_of_found h env hflags'.1 hflags'.2 hlisten hlp hlimit' rfl hold]
    refine .head (.replace hx hrst hflags'.1 hflags'.2 hnew hlisten hlp hs hlimit' hold)
      (.single ?_)
    generalize (m.endTcb old .replaced).eraseConnection
      ⟨m.localIp, seg.srcAddr, seg.dstPort, seg.srcPort⟩ = m₁ at hlp' hlisten' hlength hip hfree ⊢
    rw [← hip] at hfree ⊢
    exact .accept env hx hflags'.1 hflags'.2 hlisten' hlp' hlength hfree

/-- What work leaves of a closed TCB is closed. -/
theorem WorkPath.back_closed {s s' : Stage σ} (hpath : WorkPath x s s') (h : s.mgr.WellFormed)
    (hp : s.mgr.heap p = some t) (hs : t.state = .closed) :
    ∀ u, s'.mgr.heap p = some u → u.state = .closed := by
  intro u hu
  obtain ⟨v, hv, -, hreach⟩ := hpath.back (h.fresh p t hp) hu
  rw [hp] at hv
  cases hv
  rw [hreach.eq (by rw [hs]; rfl), hs]

omit [ICongestionControl σ] in
/-- Deleting a TCB that was set to `CLOSED`, or is gone by now. -/
theorem WellFormed.deleteTcb_closed (h : m.WellFormed)
    (hclosed : ∀ t, m.heap p = some t → t.state = .closed) :
    (m.heap p = none ∧ m.deleteTcb p = m) ∨ ∃ t, m.heap p = some t ∧ t.state = .closed ∧
      (((t.tTuple, p) ∈ m.connections ∧ m.deleteTcb p = m.eraseConnection t.tTuple) ∨
        ∃ port, (port, p) ∈ m.listeners ∧ m.deleteTcb p = m.eraseListener port) := by
  cases hp : m.heap p with
  | none => exact Or.inl ⟨rfl, h.deleteTcb_freed hp⟩
  | some t =>
    have hs := hclosed t hp
    refine Or.inr ⟨t, rfl, hs, ?_⟩
    rcases h.owned p t hp with hk | hl
    · exact Or.inl ⟨hk, h.deleteTcb_connection hp hk (by rw [hs]; rfl)⟩
    · exact Or.inr ⟨_, hl, h.deleteTcb_listener hl⟩

omit [ICongestionControl σ] in
theorem resetTcb_heap (hp : m.heap p = some t) : ∃ u, (m.resetTcb p).heap p = some u ∧
    u.state = .closed ∧ u.toTCBIdentity = t.toTCBIdentity := by
  unfold resetTcb
  split
  all_goals
    rw [endTcb_of_heap (t := t) (by exact hp)]
    exact ⟨_, store_heap_self _ ⟨p, _, _⟩, rfl, rfl⟩

/-- An accepted RST: the TCB is closed, the application is told, the TCB is deleted. -/
theorem handleRst_accepted (h : m.WellFormed) {seg : TCPSegment} (hp : m.heap p = some t)
    (hwnd : rstInWindow seg t = true) : ∃ m₁ : TCPConnectionManager σ,
      WorkPath x ⟨m.resetTcb p, none⟩ ⟨m₁, none⟩ ∧ m₁.WellFormed ∧
      (∀ u, m₁.heap p = some u → u.state = .closed) ∧
      m.handleRst x.ctx p seg = m₁.deleteTcb p := by
  obtain ⟨u, hu, hs, -⟩ := resetTcb_heap hp
  have hwf := h.resetTcb p
  have hwork := path_notifyClose (x := x) hwf p
  refine ⟨_, hwork, hwork.wellFormed hwf, hwork.back_closed hwf hu hs, ?_⟩
  rw [handleRst, test_of_heap hp, if_pos hwnd]
  rfl

theorem path_handleRst (h : m.WellFormed) {seg : TCPSegment} (hx : x.seg = some seg)
    (hrst : seg.isRst = true)
    (hfind : (m.findTcb seg.tuple <|> m.findListeningTcb seg.dstPort) = some p)
    (hp : m.heap p = some t) : Path m x ⟨m, none⟩ ⟨m.handleRst x.ctx p seg, none⟩ := by
  cases hwnd : rstInWindow seg t with
  | false =>
    rw [handleRst, test_of_heap hp, hwnd]
    exact .refl
  | true =>
    obtain ⟨m₁, hwork, hwf, hclosed, heq⟩ := handleRst_accepted (x := x) h hp hwnd
    have hpath : Path m x ⟨m, none⟩ ⟨m₁, none⟩ :=
      .head (.rst hx hrst hfind hp hwnd) hwork.path
    rw [heq]
    rcases hwf.deleteTcb_closed hclosed with ⟨-, hdel⟩ | ⟨u, hu, hs, ⟨hk, hdel⟩ | ⟨port, hl, hdel⟩⟩
    · rw [hdel]
      exact hpath
    · rw [hdel]
      exact hpath.tail (.eraseClosed hu hs hk)
    · rw [hdel]
      exact hpath.tail (.eraseReset hu hs hl)

/-! ### The dispatcher -/

/-- **An incoming segment is a sequence of moves.** -/
theorem path_onSegmentReceived (h : m.WellFormed) {seg : TCPSegment} (hx : x.seg = some seg) :
    Path m x ⟨m, none⟩ ⟨m.onSegmentReceived x.ctx seg, none⟩ := by
  unfold onSegmentReceived
  cases hfind : m.findTcb seg.tuple <|> m.findListeningTcb seg.dstPort with
  | none =>
    dsimp only
    split
    · exact .refl
    · exact .single (.reply m seg hx)
  | some p =>
    dsimp only
    have hlive : ∃ t, m.heap p = some t := by
      cases hnew : m.findTcb seg.tuple with
      | none =>
        rw [hnew] at hfind
        obtain ⟨t, hp, -⟩ := h.findListening hfind
        exact ⟨t, hp⟩
      | some q =>
        rw [hnew] at hfind
        cases hfind
        obtain ⟨t, hp, -⟩ := h.find hnew
        exact ⟨t, hp⟩
    obtain ⟨t, hp⟩ := hlive
    split
    · rename_i hrst
      exact path_handleRst h hx hrst hfind hp
    rename_i hrst
    have hrst : seg.isRst = false := by simpa using hrst
    rw [hp]
    dsimp only
    have hin : ∀ s, t.state = s → s ≠ .listen → s ≠ .closed → m.InState p s := by
      rintro s rfl hl hc
      exact ⟨t, hp, h.mem_connections hp hl hc, rfl⟩
    cases hs : t.state with
    | closed =>
      unfold handleClosed
      rw [hrst]
      exact .single (.reply m seg hx)
    | listen =>
      -- only a listener listens
      cases hnew : m.findTcb seg.tuple with
      | none =>
        rw [hnew] at hfind
        exact path_handleListen h x.ctx.toEnv hx hrst hnew hfind hp hs
      | some q =>
        rw [hnew] at hfind
        cases hfind
        obtain ⟨u, hu, -, hl⟩ := h.find hnew
        rw [hp] at hu
        cases hu
        exact absurd hs hl
    | synSent => exact path_handleSynSent h (hin _ hs (by decide) (by decide)) hx
    | synRcvd => exact path_handleSynRcvd h (hin _ hs (by decide) (by decide)) hx hrst
    | established =>
      have hin := hin _ hs (by decide) (by decide)
      exact path_handleEstablished (hin.ready h rfl) hin (Or.inl rfl) hx
    | finWait1 => exact path_handleFinWait1 h (hin _ hs (by decide) (by decide)) hx
    | finWait2 => exact path_handleFinWait2 h (hin _ hs (by decide) (by decide)) hx
    | closeWait =>
      exact (path_handleAck ((hin _ hs (by decide) (by decide)).ready h rfl) x.ctx.toEnv hx).path
    | closing => exact path_handleClosing h (hin _ hs (by decide) (by decide)) hx
    | lastAck => exact path_handleLastAck h (hin _ hs (by decide) (by decide)) hx
    | timeWait => exact path_handleTimeWait h (hin _ hs (by decide) (by decide))

/-! ## The timer -/

/-- A connection of the table that is `CLOSED`. -/
def ClosedAt (m : TCPConnectionManager σ) (tuple : TCPTuple) : Prop :=
  ∃ p t, m.heap p = some t ∧ t.tTuple = tuple ∧ (tuple, p) ∈ m.connections ∧ t.state = .closed

theorem WorkPath.closedAt {s s' : Stage σ} (hpath : WorkPath x s s') (h : s.mgr.WellFormed)
    {tuple : TCPTuple} (hclosed : s.mgr.ClosedAt tuple) : s'.mgr.ClosedAt tuple := by
  obtain ⟨p, t, hp, rfl, hk, hs⟩ := hclosed
  obtain ⟨b, hreach, u, hu, hk', hs'⟩ :=
    hpath.kept h (p := p) (a := .closed) ⟨t, hp, hk, hs⟩ (by decide)
  obtain ⟨v, hv, htuple, -⟩ := hpath.back (h.fresh p t hp) hu
  rw [hp] at hv
  cases hv
  exact ⟨p, u, hu, htuple, htuple ▸ hk', hs'.trans (hreach.eq rfl)⟩

omit [ICongestionControl σ] in
theorem ClosedAt.endTcb {tuple : TCPTuple} (h : m.ClosedAt tuple) (q : Ptr) (cause : EndCause) :
    (m.endTcb q cause).ClosedAt tuple := by
  obtain ⟨p, t, hp, htuple, hk, hs⟩ := h
  have hk' : (tuple, p) ∈ (m.endTcb q cause).connections := by
    rwa [(endTcb_tables cause).1]
  rcases eq_or_ne p q with rfl | hne
  · rw [endTcb_of_heap hp] at hk' ⊢
    exact ⟨p, _, store_heap_self m ⟨p, _, _⟩, htuple, hk', rfl⟩
  · exact ⟨p, t, (endTcb_heap_ne hne cause).trans hp, htuple, hk', hs⟩

/-- A connection that is alive after some work is under its tuple in the table. -/
theorem WorkPath.back_connection {s s' : Stage σ} (hpath : WorkPath x s s') (h : s.mgr.WellFormed)
    (hp : s.mgr.heap p = some t) (hk : (t.tTuple, p) ∈ s.mgr.connections) {u : TCB σ}
    (hu : s'.mgr.heap p = some u) : u.tTuple = t.tTuple ∧ (t.tTuple, p) ∈ s'.mgr.connections := by
  have hlt := h.fresh p t hp
  obtain ⟨v, hv, htuple, -⟩ := hpath.back hlt hu
  rw [hp] at hv
  cases hv
  refine ⟨htuple, ?_⟩
  rcases (hpath.wellFormed h).owned p u hu with hk' | hl
  · exact htuple ▸ hk'
  · exact absurd (hpath.listeners_back hlt hl) (h.disjoint _ _ _ hk)

/-- `check_retransmit` is work, but for giving up. -/
theorem path_checkRetransmit (h : m.WellFormed) (hp : m.heap p = some t)
    (hk : (t.tTuple, p) ∈ m.connections) :
    Path o x ⟨m, none⟩ ⟨m.checkRetransmit x.ctx p, none⟩ ∧
      (∀ tuple, m.ClosedAt tuple → (m.checkRetransmit x.ctx p).ClosedAt tuple) ∧
      ∀ u, (m.checkRetransmit x.ctx p).heap p = some u →
        u.tTuple = t.tTuple ∧ (t.tTuple, p) ∈ (m.checkRetransmit x.ctx p).connections := by
  unfold checkRetransmit
  split
  · have hcount : WorkPath x ⟨m, none⟩ ⟨m.on p (·.countRetransmit), none⟩ :=
      path_on none fun u hu => .countRetransmit _
    have hwf : (m.on p (·.countRetransmit)).WellFormed := hcount.wellFormed h
    dsimp only
    split
    · have hwork : WorkPath x ⟨m, none⟩ ⟨(m.on p (·.countRetransmit)).notifyClose x.ctx p, none⟩ :=
        hcount.trans (path_notifyClose hwf p)
      generalize (m.on p (·.countRetransmit)).notifyClose x.ctx p = m₁ at hwork
      cases hu : m₁.heap p with
      | none =>
        rw [endTcb, on_of_freed hu]
        refine ⟨hwork.path, fun tuple hc => hwork.closedAt h hc, fun u hu' => ?_⟩
        rw [hu] at hu'
        cases hu'
      | some u =>
        obtain ⟨htuple, hk'⟩ := hwork.back_connection h hp hk hu
        have hl : u.state ≠ .listen := by
          obtain ⟨v, hv, -, hs⟩ := (hwork.wellFormed h).connection _ _ hk'
          rw [show v = u from Option.some.inj (hv.symm.trans hu)] at hs
          exact hs
        refine ⟨hwork.path.tail (.giveUp hu hl), fun tuple hc => (hwork.closedAt h hc).endTcb p _,
          fun w hw => ?_⟩
        rw [(endTcb_tables _).1]
        rw [endTcb_of_heap hu, show p = (Conn.mk p ({ u with state := .closed } : TCB σ)
          (m₁.trace ++ [.ended p u.state .gaveUp, .moved p u.state .closed])).ptr from rfl,
          store_heap_self] at hw
        cases hw
        exact ⟨htuple, hk'⟩
    · have hwork : WorkPath x ⟨m, none⟩
          ⟨(m.on p (·.countRetransmit)).on p (·.retransmit x.ctx.toEnv), none⟩ :=
        hcount.trans (path_on none fun u hu => .retransmit x.ctx.toEnv _)
      exact ⟨hwork.path, fun tuple hc => hwork.closedAt h hc,
        fun u hu => hwork.back_connection h hp hk hu⟩
  · refine ⟨.refl, fun tuple hc => hc, fun u hu => ?_⟩
    rw [hp] at hu
    cases hu
    exact ⟨rfl, hk⟩

/-- One connection of the sweep. -/
theorem path_visit (s : TCPConnectionManager σ × List TCPTuple) (h : s.1.WellFormed)
    (hclosed : ∀ tuple ∈ s.2, s.1.ClosedAt tuple) (tuple : TCPTuple) :
    Path o x ⟨s.1, none⟩ ⟨(visit x.ctx s tuple).1, none⟩ ∧
      ∀ tuple' ∈ (visit x.ctx s tuple).2, (visit x.ctx s tuple).1.ClosedAt tuple' := by
  unfold visit
  split
  · exact ⟨.refl, hclosed⟩
  rename_i p hfind
  obtain ⟨t, hp, rfl, -⟩ := h.find hfind
  obtain ⟨hpath, hkeep, hself⟩ := path_checkRetransmit (o := o) (x := x) h hp (h.findTcb_iff.mp hfind)
  have hwf := hpath.wellFormed h
  generalize s.1.checkRetransmit x.ctx p = m₁ at hpath hkeep hself hwf
  dsimp only at hwf ⊢
  split
  · rename_i hs
    refine ⟨hpath, fun tuple' htuple' => ?_⟩
    rcases List.mem_append.mp htuple' with hold | hnew
    · exact hkeep tuple' (hclosed tuple' hold)
    · rw [List.mem_singleton.mp hnew]
      cases hu : m₁.heap p with
      | none =>
        rw [test, hu] at hs
        cases hs
      | some u =>
        rw [test_of_heap hu, beq_iff_eq] at hs
        exact ⟨p, u, hu, (hself u hu).1, (hself u hu).2, hs⟩
  · have hwork : WorkPath x ⟨m₁, none⟩ ⟨(m₁.on p (·.checkDelayedAck x.ctx.toEnv)).on p
        (·.checkZeroWindowProbe x.ctx.toEnv), none⟩ :=
      Relation.ReflTransGen.trans (path_on none fun u hu => .checkDelayedAck x.ctx.toEnv _)
        (path_on none fun u hu => .checkZeroWindowProbe x.ctx.toEnv _)
    exact ⟨hpath.trans hwork.path,
      fun tuple' htuple' => hwork.closedAt hwf (hkeep tuple' (hclosed tuple' htuple'))⟩

theorem path_sweep (order : List TCPTuple) (s : TCPConnectionManager σ × List TCPTuple)
    (h : s.1.WellFormed) (hclosed : ∀ tuple ∈ s.2, s.1.ClosedAt tuple) :
    Path o x ⟨s.1, none⟩ ⟨(order.foldl (visit x.ctx) s).1, none⟩ ∧
      ∀ tuple ∈ (order.foldl (visit x.ctx) s).2, (order.foldl (visit x.ctx) s).1.ClosedAt tuple := by
  induction order generalizing s with
  | nil => exact ⟨.refl, hclosed⟩
  | cons tuple order ih =>
    obtain ⟨hpath, hclosed'⟩ := path_visit (o := o) (x := x) s h hclosed tuple
    obtain ⟨hpath', hrest⟩ := ih _ (hpath.wellFormed h) hclosed'
    exact ⟨hpath.trans hpath', hrest⟩

/-- The deletions behind the sweep; erasing one tuple leaves the others as they were. -/
theorem path_eraseAll (l : List TCPTuple) (h : m.WellFormed)
    (hclosed : ∀ tuple ∈ l, m.findTcb tuple = none ∨ m.ClosedAt tuple) :
    Path o x ⟨m, none⟩ ⟨l.foldl eraseConnection m, none⟩ := by
  induction l generalizing m with
  | nil => exact .refl
  | cons tuple l ih =>
    have hfirst := hclosed tuple (List.mem_cons_self ..)
    cases hfind : m.findTcb tuple with
    | none =>
      rw [List.foldl_cons, eraseConnection, hfind]
      exact ih h fun tuple' h' => hclosed tuple' (List.mem_cons_of_mem _ h')
    | some p =>
      rw [hfind] at hfirst
      obtain ⟨q, t, hp, htuple, hk, hs⟩ := hfirst.resolve_left (by simp)
      have hpq : p = q := Table.eq_of_mem h.keys_nodup (h.findTcb_iff.mp hfind) hk
      subst hpq
      have hmove : Move o x ⟨m, none⟩ ⟨m.eraseConnection tuple, none⟩ := by
        subst htuple
        exact .eraseClosed hp hs hk
      have hwf := h.eraseConnection tuple
      refine .head hmove (ih hwf fun tuple' h' => ?_)
      rcases eq_or_ne tuple' tuple with rfl | hne
      · refine Or.inl ?_
        rw [eraseConnection, hfind, findTcb, List.lookup_eq_none_iff]
        rintro ⟨k', r⟩ hr
        exact bne_iff_ne.mpr (Table.mem_erase.mp hr).2.symm
      · rcases hclosed tuple' (List.mem_cons_of_mem _ h') with hnone | ⟨r, u, hr, hu, hk', hs'⟩
        · refine Or.inl ?_
          cases hfind' : (m.eraseConnection tuple).findTcb tuple' with
          | none => rfl
          | some r =>
            have hr := hwf.findTcb_iff.mp hfind'
            simp only [eraseConnection, hfind] at hr
            rw [h.findTcb_iff.mpr (Table.mem_erase.mp hr).1] at hnone
            cases hnone
        · refine Or.inr ⟨r, u, ?_, hu, mem_eraseConnection hk' hne, hs'⟩
          rw [eraseConnection_heap hfind, hr]
          rintro rfl
          exact hne (h.tuple_eq hk' hk)

theorem path_expireAll (l : List (Nat × TCPTuple)) (h : m.WellFormed) (now : Nat) :
    Path o x ⟨m, none⟩ ⟨l.foldl (fun m entry =>
      if entry.1 ≤ now then m.expireTimeWait .timeWaitExpired entry.2 else m) m, none⟩ := by
  induction l generalizing m with
  | nil => exact .refl
  | cons entry l ih =>
    rw [List.foldl_cons]
    split
    · have hpath := (path_expireTimeWait (o := o) (x := x) h (Or.inl rfl) entry.2).1
      exact hpath.trans (ih (hpath.wellFormed h))
    · exact ih h

/-- **The timer is a sequence of moves.** -/
theorem path_onTimer (h : m.WellFormed) (order : List TCPTuple) :
    Path m x ⟨m, none⟩ ⟨m.onTimer x.ctx order, none⟩ := by
  unfold onTimer
  dsimp only
  generalize (if order.isPerm (m.connections.map (·.1)) then order
    else m.connections.map (·.1)) = keys
  obtain ⟨hsweep, hclosed⟩ := path_sweep (o := m) (x := x) keys (m, []) h (fun _ h => nomatch h)
  have hwf : (keys.foldl (visit x.ctx) (m, [])).1.WellFormed := hsweep.wellFormed h
  have herase := path_eraseAll (o := m) (x := x) _ hwf fun tuple h' => Or.inr (hclosed tuple h')
  have hexpire := path_expireAll (o := m) (x := x)
    ((keys.foldl (visit x.ctx) (m, [])).2.foldl eraseConnection
      (keys.foldl (visit x.ctx) (m, [])).1).timeWaitList (herase.wellFormed hwf) x.ctx.now
  exact ((hsweep.trans herase).trans hexpire).tail (.timeWaitList _ _)

/-! ## Entries and runs -/

/-- **Every entry into a well-formed manager is a sequence of moves.** -/
theorem path_step (h : m.WellFormed) (x : Input σ) : Path m x ⟨m, none⟩ ⟨m.step x, none⟩ := by
  unfold TCPConnectionManager.step
  cases hop : x.op with
  | call a => exact ((path_call h x.ctx.toEnv a).workPath (Or.inl hop) none).path
  | segment seg =>
    refine path_onSegmentReceived h ?_
    rw [Input.seg, hop]
  | timer order => exact path_onTimer h order

theorem WellFormed.step (h : m.WellFormed) (x : Input σ) : (m.step x).WellFormed :=
  (path_step h x).wellFormed h

/-- **Every reachable manager is well-formed.** -/
theorem WellFormed.run (h : m.WellFormed) (xs : List (Input σ)) :
    (GuardedRun.run TCPConnectionManager.step m xs).WellFormed :=
  GuardedRun.run_invariant (fun _ x h => h.step x) h xs

/-- The states of a manager over all of its runs. -/
def Reachable (m : TCPConnectionManager σ) : Prop :=
  ∃ localIp xs, m = GuardedRun.run TCPConnectionManager.step (init localIp) xs

theorem Reachable.wellFormed (h : m.Reachable) : m.WellFormed := by
  obtain ⟨localIp, xs, rfl⟩ := h
  exact (WellFormed.init localIp).run xs

theorem Reachable.init (localIp : UInt32) :
    (TCPConnectionManager.init localIp : TCPConnectionManager σ).Reachable := ⟨localIp, [], rfl⟩

theorem Reachable.step (h : m.Reachable) (x : Input σ) : (m.step x).Reachable := by
  obtain ⟨localIp, xs, rfl⟩ := h
  exact ⟨localIp, xs ++ [x], by rw [GuardedRun.run_append]; rfl⟩

/-- What every move keeps, a path of moves keeps. -/
theorem Path.invariant {P : Stage σ → Prop} {s s' : Stage σ} (hpath : Path o x s s')
    (hmove : ∀ s s', s.mgr.WellFormed → Move o x s s' → P s → P s')
    (h : s.mgr.WellFormed) (hP : P s) : P s' :=
  (GuardedRun.invariant_of_path (P := fun s => s.mgr.WellFormed ∧ P s)
    (fun s s' hm hs => ⟨hs.1.move hm, hmove s s' hs.1 hm hs.2⟩) hpath ⟨h, hP⟩).2

end TCPConnectionManager

end NeuStack
