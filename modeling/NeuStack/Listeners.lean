import NeuStack.ManagerPaths

/-! # Who can stop a listener

A segment that matches no connection is dispatched to the listener of its port,
and a RST goes to `handle_rst` there as on a connection.  The receive variables
of a listener are those it was made with, so a RST with a sequence number below
65535 is in its window, and `delete_tcb` takes the listener out of its table.

Apart from that, nothing but the application stops a listener: between two
states of a run the listeners are the same exactly if no such RST came.
-/
namespace NeuStack
variable {σ : Type}

namespace TCPConnectionManager
variable {m m' : TCPConnectionManager σ} {p q : Ptr} {t : TCB σ} {port : UInt16}

/-- The TCB at `p` listens on `port`. -/
def Listening (m : TCPConnectionManager σ) (port : UInt16) (p : Ptr) : Prop :=
  (port, p) ∈ m.listeners ∧ ∃ t, m.heap p = some t ∧ t.state = .listen

/-- The same TCBs listen on the same ports. -/
def SameListeners (m m' : TCPConnectionManager σ) : Prop :=
  ∀ port p, m'.Listening port p ↔ m.Listening port p

theorem SameListeners.refl (m : TCPConnectionManager σ) : m.SameListeners m := fun _ _ => Iff.rfl

theorem SameListeners.trans {m'' : TCPConnectionManager σ} (h : m.SameListeners m')
    (h' : m'.SameListeners m'') : m.SameListeners m'' :=
  fun port p => (h' port p).trans (h port p)

/-- Nothing but the heap and the table matters. -/
theorem SameListeners.of_eq (hheap : m'.heap = m.heap) (hlist : m'.listeners = m.listeners) :
    m.SameListeners m' := fun port p => by rw [Listening, Listening, hheap, hlist]

/-! ## What changes no listener -/

theorem sameListeners_store (hp : m.heap p = some t) {c : Conn σ} (hptr : c.ptr = p)
    (hs : c.tcb.state = .listen ↔ t.state = .listen) : m.SameListeners (m.store c) := by
  subst hptr
  refine fun port q => and_congr_right fun _ => ?_
  rcases eq_or_ne q c.ptr with rfl | hne
  · rw [store_heap_self, hp]
    simpa using hs
  · rw [store_heap_ne m hne]

/-- A TCB that does not listen goes on not listening. -/
theorem sameListeners_store_ne (hp : m.heap p = some t) {c : Conn σ} (hptr : c.ptr = p)
    (hs : t.state ≠ .listen) (hs' : c.tcb.state ≠ .listen) : m.SameListeners (m.store c) :=
  sameListeners_store hp hptr (iff_of_false hs' hs)

/-- A connection ends. -/
theorem sameListeners_endTcb (hp : m.heap p = some t) (hs : t.state ≠ .listen) (cause : EndCause) :
    m.SameListeners (m.endTcb p cause) := by
  rw [endTcb_of_heap hp]
  exact sameListeners_store_ne hp rfl hs (fun hl => nomatch hl)

/-- A connection leaves the table. -/
theorem sameListeners_eraseConnection (h : m.WellFormed) (k : TCPTuple) :
    m.SameListeners (m.eraseConnection k) := by
  unfold eraseConnection
  split
  · exact .refl m
  rename_i p hk
  refine fun port q => and_congr_right fun hq => ?_
  have hne : q ≠ p := by
    rintro rfl
    exact h.disjoint _ _ _ (h.findTcb_iff.mp hk) hq
  simp only [free_heap, ne_eq, hne, not_false_eq_true, true_and]

/-- An entry that does not listen leaves the other table. -/
theorem sameListeners_eraseListener (h : m.WellFormed) (hno : ∀ p, ¬ m.Listening port p) :
    m.SameListeners (m.eraseListener port) := by
  unfold eraseListener
  split
  · exact .refl m
  rename_i p hk
  have hp := h.findListeningTcb_iff.mp hk
  intro port' q
  constructor
  · rintro ⟨hq, u, hu, hs⟩
    exact ⟨(Table.mem_erase.mp hq).1, u, ((free_heap m p q u).mp hu).2, hs⟩
  · rintro ⟨hq, u, hu, hs⟩
    have hport : port' ≠ port := by
      rintro rfl
      exact hno q ⟨hq, u, hu, hs⟩
    have hne : q ≠ p := by
      rintro rfl
      exact hport (h.port_eq hq hp)
    exact ⟨Table.mem_erase.mpr ⟨hq, hport⟩, u, (free_heap m p q u).mpr ⟨hne, hu⟩, hs⟩

/-- A connection is opened. -/
theorem sameListeners_openWith (h : m.WellFormed) (env : Env) (flags : UInt8) (s : TCPState)
    (t : TCB σ) : m.SameListeners (m.openWith env flags s t) := by
  refine fun port q => and_congr_right fun hq => ?_
  obtain ⟨u, hu, -⟩ := h.listener port q hq
  rw [show (m.openWith env flags s t).heap q = m.heap q from
    Function.update_of_ne (h.ne_nextAddr hu) ..]

variable [ICongestionControl σ] {x : Input σ} {s s' : Stage σ}

/-- The application stops no listener of `m`, and starts none. -/
def LeftAlone (m : TCPConnectionManager σ) (x : Input σ) : Prop :=
  ∀ a, x.Makes a → (∀ port onAccept, a ≠ .listen port onAccept) ∧
    ∀ port p, m.Listening port p → a ≠ .unlisten port ∧ a ≠ .close p

omit [ICongestionControl σ] in
theorem LeftAlone.congr (h : m.LeftAlone x) (hsame : m.SameListeners m') : m'.LeftAlone x :=
  fun a ha => ⟨(h a ha).1, fun port p hl => (h a ha).2 port p ((hsame port p).mp hl)⟩

/-- A connection function neither enters nor leaves `LISTEN`. -/
theorem state_listen_iff {y : Option TCPSegment} {c c' : Conn σ} (h : Conn.ConnStep y c c') :
    c'.tcb.state = .listen ↔ c.tcb.state = .listen := by
  rcases h.path.state with heq | ⟨hcan, heq⟩
  · rw [heq]
  · rw [heq]
    constructor <;> intro hs
    · have hact := TCPState.isActive_afterFin hcan
      rw [hs] at hact
      cases hact
    · rw [hs] at hcan
      cases hcan

theorem CallMove.sameListeners {a : Call} (hmove : CallMove a m m') (h : m.WellFormed)
    (ha : x.Makes a) (hleft : m.LeftAlone x) : m.SameListeners m' := by
  obtain ⟨hstart, hstop⟩ := hleft a ha
  cases hmove with
  | conn _ hp hstep => exact sameListeners_store hp hstep.path.ptr (state_listen_iff hstep)
  | setCallbacks _ _ _ hp => exact sameListeners_store hp rfl Iff.rfl
  | setDefaultOptions => exact .of_eq rfl rfl
  | listen _ port onAccept => exact absurd rfl (hstart port onAccept)
  | unlisten port ha =>
    refine sameListeners_eraseListener h fun p hl => ?_
    obtain ⟨hunlisten, hclose⟩ := hstop port p hl
    rcases ha with ha | ⟨q, ha, hq⟩
    · exact hunlisten ha
    · exact hclose (Table.eq_of_mem h.ports_nodup hq hl.1 ▸ ha)
  | connect => exact sameListeners_openWith h _ _ _ _
  | abort => exact sameListeners_eraseConnection (h.log _) _

theorem Work.sameListeners (hmove : Work x s s') (h : s.mgr.WellFormed)
    (hleft : s.mgr.LeftAlone x) : s.mgr.SameListeners s'.mgr := by
  cases hmove with
  | call _ ha hcall => exact hcall.sameListeners h ha hleft
  | conn _ hp hstep => exact sameListeners_store hp hstep.path.ptr (state_listen_iff hstep)
  | notifyClose => exact .of_eq rfl rfl
  | deliver => exact .of_eq rfl rfl
  | deliverOoo => exact .of_eq rfl rfl
  | advanceRcv hp => exact sameListeners_store hp rfl Iff.rfl
  | @popOoo m p t hp hs =>
    refine sameListeners_store hp rfl (iff_of_eq (congrArg (· = TCPState.listen) ?_))
    unfold TCPConnectionManager.popOoo
    split <;> rfl
  | @stash m p t seg hx hp hs =>
    refine sameListeners_store hp rfl (iff_of_eq (congrArg (· = TCPState.listen) ?_))
    unfold addToOooQueue
    split <;> rfl

theorem WorkPath.sameListeners (hpath : WorkPath x s s') (h : s.mgr.WellFormed)
    (hleft : s.mgr.LeftAlone x) : s.mgr.SameListeners s'.mgr := by
  induction hpath with
  | refl => exact .refl _
  | tail hpath hmove ih =>
    exact ih.trans (hmove.sameListeners (WorkPath.wellFormed hpath h) (hleft.congr ih))

/-- The input is a RST that the dispatcher hands to the listener of `port`. -/
def Resets (m : TCPConnectionManager σ) (x : Input σ) (port : UInt16) : Prop :=
  ∃ seg, x.seg = some seg ∧ seg.isRst = true ∧ seg.dstPort = port ∧
    m.findTcb seg.tuple = none ∧ seg.seqNum.toNat < 65535

omit [ICongestionControl σ] in
/-- The receive window of a listener. -/
theorem rstInWindow_listen (h : t.Shape) (hs : t.state = .listen) (seg : TCPSegment) :
    rstInWindow seg t = true ↔ seg.seqNum.toNat < 65535 := by
  obtain ⟨hnxt, hwnd⟩ := h.listening hs
  rw [rstInWindow, seqInRange, Bool.and_eq_true, seqGe_iff, seqLt_iff, hnxt, hwnd]
  bv_omega

/-- No listener of the state is reset by the input. -/
def SparesListeners (m : TCPConnectionManager σ) (x : Input σ) : Prop :=
  ∀ port p, m.Listening port p → ¬ m.Resets x port

omit [ICongestionControl σ] in
theorem sameListeners_resetTcb (hp : m.heap p = some t) (hs : t.state ≠ .listen) :
    m.SameListeners (m.resetTcb p) := by
  unfold resetTcb
  split
  · have hend : ({ m with activeConnections := m.activeConnections - 1 } :
        TCPConnectionManager σ).SameListeners _ := sameListeners_endTcb (by exact hp) hs .rst
    exact fun port q => (hend port q).trans Iff.rfl
  · exact sameListeners_endTcb hp hs .rst

/-- **What a move does to the listeners**: nothing, unless it is made for a RST to
one of them. -/
theorem Move.sameListeners (hmove : Move m x s s') (h : s.mgr.WellFormed)
    (hleft : s.mgr.LeftAlone x) (hspare : m.SparesListeners x) :
    s.mgr.SameListeners s'.mgr := by
  cases hmove with
  | work hwork => exact hwork.sameListeners h hleft
  | reply => exact .of_eq rfl rfl
  | replace _ _ _ _ _ _ _ _ _ hold =>
    obtain ⟨t, hp, -, hs⟩ := h.find hold
    exact (sameListeners_endTcb hp hs _).trans (sameListeners_eraseConnection (h.endTcb _) _)
  | accept => exact sameListeners_openWith h _ _ _ _
  | simultaneousOpen env hx hp hs =>
    rw [simultaneousOpen_eq]
    exact sameListeners_store_ne hp rfl (by rw [hs]; decide) (fun hl => nomatch hl)
  | @establish m p t t' seg c hx hp hack hopening hpath hstate =>
    rw [establish_store hpath.ptr]
    have hs : t.state ≠ .listen := by
      rcases hopening.opening with hs | hs <;> rw [hs] <;> decide
    have hstore : m.SameListeners (m.store ⟨p, { c.tcb with state := .established },
        c.trace ++ [.moved p c.tcb.state .established]⟩) :=
      sameListeners_store_ne hp rfl hs (fun hl => nomatch hl)
    exact hstore.trans (.of_eq rfl rfl)
  | receiveFin env hx hp hfin hseq hedge =>
    rw [receiveFin_of_heap hp]
    exact sameListeners_store_ne hp rfl (TCPState.ne_listen_of_isActive hedge.isActive.1)
      (TCPState.ne_listen_of_isActive hedge.isActive.2)
  | finAcked hp hedge =>
    exact sameListeners_store_ne hp rfl (TCPState.ne_listen_of_isActive hedge.isActive.1)
      (TCPState.ne_listen_of_isActive hedge.isActive.2)
  | lastAck hp hs =>
    exact (sameListeners_endTcb hp (by rw [hs]; decide) _).trans
      (sameListeners_eraseConnection (h.endTcb _) _)
  | @rst p t seg hx hrst hfind hp hwnd =>
    refine sameListeners_resetTcb hp fun hs => ?_
    cases hnew : m.findTcb seg.tuple with
    | some q =>
      rw [hnew] at hfind
      cases hfind
      obtain ⟨u, hu, -, hl⟩ := h.find hnew
      rw [hp] at hu
      cases hu
      exact hl hs
    | none =>
      rw [hnew] at hfind
      exact hspare _ _ ⟨h.findListeningTcb_iff.mp hfind, t, hp, hs⟩ ⟨seg, hx, hrst, rfl, hnew,
        (rstInWindow_listen (h.shape p t hp) hs seg).mp hwnd⟩
  | giveUp hp hs => exact sameListeners_endTcb hp hs _
  | timeWaitEnd hp hs =>
    exact (sameListeners_endTcb hp (by rw [hs]; decide) _).trans
      (sameListeners_eraseConnection (h.endTcb _) _)
  | eraseClosed => exact sameListeners_eraseConnection h _
  | @eraseReset m p t port hp hs hl =>
    refine sameListeners_eraseListener h fun q hq => ?_
    obtain ⟨hq, u, hu, hs'⟩ := hq
    rw [Table.eq_of_mem h.ports_nodup hq hl, hp] at hu
    cases hu
    rw [hs] at hs'
    cases hs'
  | timeWaitList => exact .of_eq rfl rfl
  | release hp hs => exact sameListeners_store hp rfl Iff.rfl

/-- **What one entry does to the listeners.** -/
theorem sameListeners_step (h : m.WellFormed) (hleft : m.LeftAlone x)
    (hspare : m.SparesListeners x) : m.SameListeners (m.step x) :=
  (path_step h x).invariant (P := fun s => m.SameListeners s.mgr)
    (fun _ _ hwf hmove hsame => hsame.trans (hmove.sameListeners hwf (hleft.congr hsame) hspare))
    h (.refl m)

/-- And a RST to one of them stops it. -/
theorem not_listening_step (h : m.WellFormed) (hl : m.Listening port p) (hreset : m.Resets x port) :
    ¬ (m.step x).Listening port p := by
  obtain ⟨seg, hx, hrst, rfl, hnew, hlt⟩ := hreset
  obtain ⟨hmem, t, hp, hs⟩ := hl
  have hstep : m.step x = m.handleRst x.ctx p seg := by
    rw [step, Input.op_of_seg hx]
    show m.onSegmentReceived x.ctx seg = _
    rw [onSegmentReceived, hnew, h.findListeningTcb_iff.mpr hmem]
    simp only [hrst, if_true]
    rfl
  obtain ⟨m₁, -, hwf, hclosed, heq⟩ := handleRst_accepted (x := x) h hp
    ((rstInWindow_listen (h.shape p t hp) hs seg).mpr hlt)
  rw [hstep, heq]
  rintro ⟨-, u, hu, hs'⟩
  -- what is left of the TCB, if anything, is closed
  have hold : m₁.heap p = some u := by
    rcases hwf.deleteTcb_closed hclosed with ⟨-, hdel⟩ | ⟨v, -, -, ⟨-, hdel⟩ | ⟨port, -, hdel⟩⟩ <;>
      rw [hdel] at hu
    · exact hu
    · exact eraseConnection_heap_some hu
    · exact eraseListener_heap_some hu
  rw [hclosed u hold] at hs'
  cases hs'

/-! ## Runs -/

/-- **Who can stop a listener.**  As long as the application leaves its listeners
alone, they are the same in all states of a run if and only if no step of it
takes in a RST for the port of a listener that belongs to no connection and has
a sequence number below 65535. -/
theorem sameListeners_iff (h : m.Reachable) {xs : List (Input σ)}
    (hleft : ∀ x ∈ xs, m.LeftAlone x) :
    (∀ ys, ys <+: xs → m.SameListeners (GuardedRun.run TCPConnectionManager.step m ys)) ↔
      GuardedRun.Meets TCPConnectionManager.step SparesListeners m xs := by
  constructor
  · refine GuardedRun.meets_of_always (P := m.SameListeners) (Q := WellFormed)
      (fun _ x hwf => hwf.step x) ?_ h.wellFormed
    intro m' x hwf hsame hsame' port p hl hreset
    exact not_listening_step hwf hl hreset ((hsame' port p).mpr ((hsame port p).mp hl))
  · intro hmeets ys hys
    refine (hmeets.always (P := fun m' => m'.WellFormed ∧ m.SameListeners m') ?_
      ⟨h.wellFormed, .refl m⟩ ys hys).2
    rintro m' x hx ⟨hwf, hsame⟩ hspare
    exact ⟨hwf.step x, hsame.trans (sameListeners_step hwf ((hleft x hx).congr hsame) hspare)⟩

/-! ### A RST from nowhere -/

/-- A segment without data from port 4000 of 10.0.0.2 to port 80 of 10.0.0.1. -/
def fromPeer (flags : UInt8) (seqNum ackNum : BitVec 32) : TCPSegment :=
  ⟨0x0a000002, 0x0a000001, 4000, 80, seqNum, ackNum, flags, 65535, []⟩

/-- A host that listens on port 80. -/
def listeningHost : TCPConnectionManager (TCPCubic Unit) :=
  (init 0x0a000001).step ⟨.silent 0 0, .call (.listen 80 none)⟩

omit [ICongestionControl σ] in
theorem leftAlone_silent (m : TCPConnectionManager σ) (now : Nat) (isn : BitVec 32)
    (seg : TCPSegment) : m.LeftAlone ⟨.silent now isn, .segment seg⟩ := by
  rintro a (ha | ⟨m', ev, ha⟩)
  · cases ha
  · cases ha

/-- Outside the window it is ignored. -/
theorem listeningHost_kept :
    GuardedRun.Meets TCPConnectionManager.step SparesListeners listeningHost
      [⟨.silent 1 0, .segment (fromPeer TCPFlags.rst 70000 0)⟩] ∧
    ∀ ys, ys <+: [⟨.silent 1 0, .segment (fromPeer TCPFlags.rst 70000 0)⟩] →
      listeningHost.SameListeners (GuardedRun.run TCPConnectionManager.step listeningHost ys) := by
  have hmeets : GuardedRun.Meets TCPConnectionManager.step SparesListeners listeningHost
      [⟨.silent 1 0, .segment (fromPeer TCPFlags.rst 70000 0)⟩] := by
    refine ⟨fun port p hl hreset => ?_, trivial⟩
    obtain ⟨seg, hx, -, -, -, hlt⟩ := hreset
    cases hx
    exact absurd hlt (by decide)
  refine ⟨hmeets, (sameListeners_iff ((Reachable.init _).step _) fun x hx => ?_).mpr hmeets⟩
  rw [List.mem_singleton.mp hx]
  exact leftAlone_silent _ _ _ _

theorem listeningHost_listens : listeningHost.Listening 80 0 :=
  ⟨List.mem_singleton.mpr rfl, listenTcb 0x0a000001 80 none, rfl, rfl⟩

/-- With sequence number 0 it stops the listener. -/
theorem listeningHost_reset : ¬ ∀ (m : TCPConnectionManager (TCPCubic Unit)) (x : Input _),
    m.Reachable → (∀ a, x.op ≠ .call a) → m.LeftAlone x → m.SameListeners (m.step x) := by
  intro hclaim
  have hsame := hclaim listeningHost ⟨.silent 1 0, .segment (fromPeer TCPFlags.rst 0 0)⟩
    ((Reachable.init _).step _) (fun a ha => nomatch ha) (leftAlone_silent _ _ _ _)
  exact not_listening_step ((Reachable.init _).step _).wellFormed listeningHost_listens
    ⟨_, rfl, rfl, rfl, rfl, by decide⟩ ((hsame 80 0).mpr listeningHost_listens)

end TCPConnectionManager

end NeuStack
