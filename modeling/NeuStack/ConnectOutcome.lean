import NeuStack.ManagerEvents

/-! # What comes of a connect

`connect()` owes its caller a word through `on_connect`: 0 when the handshake ends, -1 if it
never does.  The first is said on both paths into `ESTABLISHED`.  The second stands in
one branch only, of `handle_syn_rcvd`, which no RST reaches: the dispatcher hands every RST
to `handle_rst`.  So a connection that is given up while it opens, on whatever path, goes
without a word, and a connect is answered once exactly if its connection is not.
-/
namespace NeuStack
variable {σ : Type}

/-! ## Tidings -/

/-- What a caller of `connect()` would want to know. -/
inductive Tiding where
  | established
  /-- The connection was given up before it was established. -/
  | abandoned
  | reported (cb : Option Callback) (error : Int)
  deriving DecidableEq, Repr

/-- What an event says of the connection at `p`. -/
def Event.tiding (p : Ptr) : Event → Option Tiding
  | .moved q _ .established => if q = p then some .established else none
  | .ended q s _ => if q = p ∧ s.isOpening = true then some .abandoned else none
  | .onConnect q cb error => if q = p then some (.reported cb error) else none
  | _ => none

def tidings (p : Ptr) (tr : List Event) : List Tiding := tr.filterMap (Event.tiding p)

/-- The call of `on_connect`. -/
def Tiding.report : Tiding → Option (Option Callback × Int)
  | .reported cb error => some (cb, error)
  | _ => none

/-- The calls of `on_connect` for the connection at `p`, each with its error. -/
def reports (p : Ptr) (tr : List Event) : List (Option Callback × Int) :=
  (tidings p tr).filterMap Tiding.report

variable {p q : Ptr} {ev : Event} {tr tr' evs : List Event}

theorem tidings_append (p : Ptr) (tr evs : List Event) :
    tidings p (tr ++ evs) = tidings p tr ++ tidings p evs := List.filterMap_append

theorem Event.tiding_of_ptr (h : ev.ptr ≠ some p) : ev.tiding p = none := by
  have hne : ∀ q : Ptr, some q ≠ some p → q ≠ p := fun q hq heq => hq (congrArg some heq)
  cases ev with
  | moved q s s' =>
    cases s' with
    | established => exact if_neg (hne q h)
    | _ => rfl
  | ended q s cause => exact if_neg fun hq => hne q h hq.1
  | onConnect q cb error => exact if_neg (hne q h)
  | _ => rfl

theorem Event.From.tiding (h : ev.From q) (p : Ptr) : ev.tiding p = none := by
  cases h with
  | @moved s s' hs =>
    cases s' with
    | established => cases hs
    | _ => rfl
  | _ => rfl

theorem tidings_of_grows {P : Event → Prop} (h : Grows P tr tr')
    (hP : ∀ ev, P ev → ev.tiding p = none) : tidings p tr' = tidings p tr := by
  obtain ⟨evs, rfl, hevs⟩ := h
  have hnone : tidings p evs = [] :=
    List.filterMap_eq_nil_iff.mpr fun ev hev => hP ev (hevs ev hev)
  rw [tidings_append, hnone, List.append_nil]

theorem tidings_snoc (h : ev.tiding p = none) : tidings p (tr ++ [ev]) = tidings p tr :=
  tidings_of_grows (P := (· = ev)) (.single rfl) fun _ heq => heq ▸ h

namespace TCPConnectionManager
variable {m m' o : TCPConnectionManager σ} {t : TCB σ} {k : TCPTuple} {cb : Option Callback}

/-! ## Where nothing is decided -/

/-- From `m` to `m'` nothing is decided about the connection at `p`: it is opening
afterwards if it was before. -/
structure Undecided (p : Ptr) (m m' : TCPConnectionManager σ) : Prop where
  tidings : tidings p m'.trace = tidings p m.trace
  opening : ∀ t, m.heap p = some t → t.state.isOpening = true →
    ∃ t', m'.heap p = some t' ∧ t'.state.isOpening = true ∧ t'.onConnect = t.onConnect
  back : ∀ t', m'.heap p = some t' → t'.state.isOpening = true →
    ∃ t, m.heap p = some t ∧ t.state.isOpening = true

namespace Undecided

theorem of_heap (hheap : m'.heap p = m.heap p)
    (htidings : NeuStack.tidings p m'.trace = NeuStack.tidings p m.trace) : Undecided p m m' :=
  ⟨htidings, fun t hp hs => ⟨t, hheap.trans hp, hs, rfl⟩,
    fun t hp hs => ⟨t, hheap.symm.trans hp, hs⟩⟩

theorem refl (m : TCPConnectionManager σ) : Undecided p m m := .of_heap rfl rfl

theorem log (m : TCPConnectionManager σ) (h : ev.tiding p = none) : Undecided p m (m.log ev) :=
  .of_heap rfl (tidings_snoc h)

/-- A TCB changes, but its handshake neither ends nor begins. -/
theorem store (hq : m.heap q = some t) {c : Conn σ} (hptr : c.ptr = q)
    (hs : c.tcb.state.isOpening = t.state.isOpening) (hcb : c.tcb.onConnect = t.onConnect)
    (htidings : NeuStack.tidings p c.trace = NeuStack.tidings p m.trace) :
    Undecided p m (m.store c) := by
  subst hptr
  rcases eq_or_ne p c.ptr with rfl | hne
  · refine ⟨htidings, fun u hu hopen => ?_, fun u hu hopen => ?_⟩
    · rw [hq] at hu
      cases hu
      exact ⟨c.tcb, store_heap_self m c, hs.trans hopen, hcb⟩
    · rw [store_heap_self] at hu
      cases hu
      exact ⟨t, hq, hs.symm.trans hopen⟩
  · exact .of_heap (store_heap_ne m hne) htidings

/-- Who is not opening is freed. -/
theorem free (hq : ∀ t, m.heap q = some t → t.state.isOpening = false)
    (hheap : m'.heap = Function.update m.heap q none) (htrace : m'.trace = m.trace) :
    Undecided p m m' := by
  rcases eq_or_ne p q with rfl | hne
  · refine ⟨by rw [htrace], fun t hp hs => ?_, fun t hp hs => ?_⟩
    · rw [hq t hp] at hs
      cases hs
    · rw [hheap, Function.update_self] at hp
      cases hp
  · exact .of_heap (by rw [hheap, Function.update_of_ne hne]) (by rw [htrace])

theorem eraseConnection (h : ∀ q t, m.findTcb k = some q → m.heap q = some t →
    t.state.isOpening = false) : Undecided p m (m.eraseConnection k) := by
  unfold TCPConnectionManager.eraseConnection
  split
  · exact .refl m
  · rename_i q hk
    exact .free (fun t => h q t hk) rfl rfl

theorem eraseListener (hwf : m.WellFormed) (port : UInt16) :
    Undecided p m (m.eraseListener port) := by
  unfold TCPConnectionManager.eraseListener
  split
  · exact .refl m
  · rename_i q hk
    refine .free (fun t hq => ?_) rfl rfl
    obtain ⟨u, hu, -, hs⟩ := hwf.findListening hk
    rw [hq] at hu
    cases hu
    rcases hs with hs | hs <;> rw [hs] <;> rfl

/-- A TCB at a new address. -/
theorem file (hlt : p < m.nextAddr) (hheap : m'.heap = Function.update m.heap m.nextAddr (some t))
    (htrace : m'.trace = m.trace ++ evs) (hevs : ∀ ev ∈ evs, ev.ptr = some m.nextAddr) :
    Undecided p m m' := by
  have hne : p ≠ m.nextAddr := Nat.ne_of_lt hlt
  refine .of_heap (by rw [hheap, Function.update_of_ne hne]) ?_
  rw [htrace]
  refine tidings_of_grows (P := fun ev => ev.ptr = some m.nextAddr) ⟨evs, rfl, hevs⟩ ?_
  intro ev hev
  refine Event.tiding_of_ptr fun heq => ?_
  rw [hev] at heq
  exact hne (Option.some.inj heq).symm

end Undecided

/-! ## The outcome -/

/-- **What has come of the connect** that made the TCB at `p` and was given `cb`. -/
inductive Outcome (p : Ptr) (cb : Option Callback) (m : TCPConnectionManager σ) : Prop
  | pending (t : TCB σ) (hp : m.heap p = some t) (hs : t.state.isOpening = true)
      (hcb : t.onConnect = cb) (h : tidings p m.trace = [])
  | established (hp : ∀ t, m.heap p = some t → t.state.isOpening = false)
      (h : tidings p m.trace = [.established, .reported cb 0])
  | abandoned (hp : ∀ t, m.heap p = some t → t.state.isOpening = false)
      (h : tidings p m.trace = [.abandoned])

namespace Outcome

theorem undecided (h : m.Outcome p cb) (hsame : Undecided p m m') : m'.Outcome p cb := by
  have hback : (∀ t, m.heap p = some t → t.state.isOpening = false) →
      ∀ t, m'.heap p = some t → t.state.isOpening = false := by
    intro hp t ht
    cases hs : t.state.isOpening with
    | false => rfl
    | true =>
      obtain ⟨u, hu, hopen⟩ := hsame.back t ht hs
      rw [hp u hu] at hopen
      cases hopen
  cases h with
  | pending t hp hs hcb h =>
    obtain ⟨t', hp', hs', hcb'⟩ := hsame.opening t hp hs
    exact .pending t' hp' hs' (hcb'.trans hcb) (hsame.tidings.trans h)
  | established hp h => exact .established (hback hp) (hsame.tidings.trans h)
  | abandoned hp h => exact .abandoned (hback hp) (hsame.tidings.trans h)

/-- Only what is on the heap and what was said matters. -/
theorem congr (h : m.Outcome p cb) (hheap : m'.heap = m.heap) (htrace : m'.trace = m.trace) :
    m'.Outcome p cb := h.undecided (.of_heap (by rw [hheap]) (by rw [htrace]))

/-- A connection is given up. -/
theorem ended (h : m.Outcome p cb) (hq : m.heap q = some t) (cause : EndCause)
    (hheap : ∀ u, m'.heap q = some u → u.state.isOpening = false)
    (hother : ∀ r, r ≠ q → m'.heap r = m.heap r)
    (htrace : Grows (fun ev => ev.tiding p = none) (m.trace ++ [.ended q t.state cause]) m'.trace) :
    m'.Outcome p cb := by
  have hsaid : tidings p m'.trace = tidings p (m.trace ++ [.ended q t.state cause]) :=
    tidings_of_grows htrace fun _ => id
  rcases eq_or_ne p q with rfl | hne
  · cases hs : t.state.isOpening with
    | true =>
      cases h with
      | pending u hu _ _ h =>
        refine .abandoned hheap ?_
        rw [hsaid, tidings_append, h]
        simp [tidings, Event.tiding, hs]
      | established hp =>
        rw [hp t hq] at hs
        cases hs
      | abandoned hp =>
        rw [hp t hq] at hs
        cases hs
    | false =>
      have hsame : tidings p m'.trace = tidings p m.trace := by
        rw [hsaid]
        refine tidings_snoc (if_neg fun hopen => ?_)
        rw [hs] at hopen
        cases hopen.2
      refine h.undecided ⟨hsame, fun u hu hopen => ?_, fun u hu hopen => ?_⟩
      · rw [hq] at hu
        cases hu
        rw [hs] at hopen
        cases hopen
      · rw [hheap u hu] at hopen
        cases hopen
  · refine h.undecided (.of_heap (hother p hne) (hsaid.trans (tidings_snoc ?_)))
    exact Event.tiding_of_ptr fun heq => hne (Option.some.inj heq).symm

theorem endTcb (h : m.Outcome p cb) (hq : m.heap q = some t) (cause : EndCause) :
    (m.endTcb q cause).Outcome p cb := by
  refine h.ended hq cause (fun u hu => ?_) (fun r hr => endTcb_heap_ne hr cause)
    ⟨[.moved q t.state .closed], ?_, ?_⟩
  · rw [endTcb_closed hu]
    rfl
  · rw [endTcb_of_heap hq, List.append_assoc]
    rfl
  · intro ev hev
    rw [List.mem_singleton.mp hev]
    rfl

/-- A connection that was given up leaves the table. -/
theorem remove (h : m.Outcome p cb) (hq : m.heap q = some t)
    (hk : m.findTcb k = some q) (cause : EndCause) :
    ((m.endTcb q cause).eraseConnection k).Outcome p cb := by
  refine (h.endTcb hq cause).undecided (.eraseConnection fun r u hr hu => ?_)
  rw [findTcb, (endTcb_tables cause).1] at hr
  have hrq : r = q := Option.some.inj (hr.symm.trans hk)
  rw [hrq] at hu
  rw [endTcb_closed hu]
  rfl

/-- **The word comes**, when the handshake ends. -/
theorem establish (h : m.Outcome p cb) (hq : m.heap q = some t) (hs : t.state.isOpening = true)
    {c : Conn σ} (hptr : c.ptr = q) (hc : c.tcb.state.isOpening = false)
    {s : TCPState} (htrace : Grows (fun ev => ev.tiding p = none) m.trace tr)
    (hend : c.trace = tr ++ [.moved q s .established]) :
    ((m.store c).log (.onConnect q t.onConnect 0)).Outcome p cb := by
  subst hptr
  have hsaid : tidings p ((m.store c).log (.onConnect c.ptr t.onConnect 0)).trace =
      tidings p m.trace ++ tidings p [.moved c.ptr s .established,
        .onConnect c.ptr t.onConnect 0] := by
    rw [show ((m.store c).log (.onConnect c.ptr t.onConnect 0)).trace =
      tr ++ [.moved c.ptr s .established, .onConnect c.ptr t.onConnect 0] by
        simp [TCPConnectionManager.log, hend], tidings_append]
    exact congrArg (· ++ _) (tidings_of_grows htrace fun _ => id)
  rcases eq_or_ne p c.ptr with rfl | hne
  · cases h with
    | pending u hu _ hcb h =>
      rw [hq] at hu
      cases hu
      refine .established (fun u hu => ?_) ?_
      · rw [show ((m.store c).log (.onConnect c.ptr t.onConnect 0)).heap c.ptr = some c.tcb from
          store_heap_self m c] at hu
        cases hu
        exact hc
      · rw [hsaid, h, hcb]
        simp [tidings, Event.tiding]
    | established hp =>
      rw [hp t hq] at hs
      cases hs
    | abandoned hp =>
      rw [hp t hq] at hs
      cases hs
  · refine h.undecided (.of_heap (store_heap_ne m hne) (hsaid.trans ?_))
    have hnone : tidings p [.moved c.ptr s .established, .onConnect c.ptr t.onConnect 0] = [] := by
      simp [tidings, Event.tiding, hne.symm]
    rw [hnone, List.append_nil]

end Outcome

variable [ICongestionControl σ] {x : Input σ} {s s' : Stage σ}

/-! ## What a move means for the outcome -/

omit [ICongestionControl σ] in
/-- The local FIN does not end a handshake. -/
theorem TCPState.Reaches.isOpening_eq {a b : TCPState} (h : a.Reaches b) :
    b.isOpening = a.isOpening := by
  rcases h with rfl | ⟨hcan, rfl⟩
  · rfl
  · cases a <;> rfl

omit [ICongestionControl σ] in
theorem TCPState.isOpening_of_isActive {s : TCPState} (h : s.isActive = true) :
    s.isOpening = false := by
  cases s <;> first | rfl | cases h

omit [ICongestionControl σ] in
/-- A connection that is established changes state. -/
theorem Undecided.turn (hq : m.heap q = some t) {t' : TCB σ} (hs : t.state.isActive = true)
    (hs' : t'.state.isActive = true) (hcb : t'.onConnect = t.onConnect)
    (htrace : Grows (fun ev => ev.tiding p = none) m.trace tr) :
    Undecided p m (m.store ⟨q, t', tr⟩) :=
  .store hq rfl ((TCPState.isOpening_of_isActive hs').trans
    (TCPState.isOpening_of_isActive hs).symm) hcb (tidings_of_grows htrace fun _ => id)

theorem Undecided.conn {y : Option TCPSegment} {c : Conn σ} (hq : m.heap q = some t)
    (hstep : Conn.ConnStep y ⟨q, t, m.trace⟩ c) : Undecided p m (m.store c) :=
  .store hq hstep.path.ptr (TCPState.Reaches.isOpening_eq hstep.path.state)
    (congrArg TCBIdentity.onConnect hstep.path.identity)
    (tidings_of_grows hstep.path.grows fun _ hev => hev.tiding p)

omit [ICongestionControl σ] in
theorem Undecided.openWith (hlt : p < m.nextAddr) (env : Env) (flags : UInt8) (s : TCPState)
    (t : TCB σ) : Undecided p m (m.openWith env flags s t) := by
  refine .file hlt rfl rfl fun ev hev => ?_
  simp only [List.mem_cons, List.not_mem_nil, or_false] at hev
  rcases hev with rfl | rfl | rfl <;> rfl

theorem CallMove.outcome {a : Call} (hmove : CallMove a m m') (hwf : m.WellFormed)
    (hlt : p < m.nextAddr) (h : m.Outcome p cb) : m'.Outcome p cb := by
  cases hmove with
  | conn _ hq hstep => exact h.undecided (.conn hq hstep)
  | setCallbacks _ _ _ hq => exact h.undecided (.store hq rfl rfl rfl rfl)
  | setDefaultOptions => exact h.congr rfl rfl
  | listen _ port onAccept =>
    exact h.undecided (.of_heap (listen_heap port onAccept (Nat.ne_of_lt hlt))
      (by rw [listen_trace]))
  | unlisten port => exact h.undecided (.eraseListener hwf port)
  | connect env _ remoteIp remotePort localPort onConnect =>
    exact (h.undecided (.openWith hlt env _ _ _)).undecided (.log _ rfl)
  | @abort _ q t hq hs =>
    have hk : (t.tTuple, q) ∈ m.connections :=
      hwf.mem_connections hq (by rw [hs]; decide) (by rw [hs]; decide)
    have hfind : (m.log (.ended q .synSent .localClose)).findTcb t.tTuple = some q :=
      hwf.findTcb_iff.mpr hk
    refine h.ended hq .localClose (fun u hu => ?_)
      (fun r hr => eraseConnection_heap hfind hr) ?_
    · rw [eraseConnection, hfind] at hu
      exact absurd ((free_heap _ q q u).mp hu).1 fun hne => hne rfl
    · rw [eraseConnection_trace, hs]
      exact .refl _

theorem Work.outcome (hmove : Work x s s') (hwf : s.mgr.WellFormed) (hlt : p < s.mgr.nextAddr)
    (h : s.mgr.Outcome p cb) : s'.mgr.Outcome p cb := by
  cases hmove with
  | call _ _ hcall => exact hcall.outcome hwf hlt h
  | conn _ hq hstep => exact h.undecided (.conn hq hstep)
  | notifyClose => exact h.undecided (.log _ rfl)
  | deliver => exact h.undecided (.log _ rfl)
  | deliverOoo => exact h.undecided (.log _ rfl)
  | advanceRcv hq => exact h.undecided (.store hq rfl rfl rfl rfl)
  | popOoo hq =>
    refine h.undecided (.store hq rfl ?_ ?_ rfl) <;>
    · unfold TCPConnectionManager.popOoo
      split <;> rfl
  | stash _ hq =>
    refine h.undecided (.store hq rfl ?_ ?_ rfl) <;>
    · unfold addToOooQueue
      split <;> rfl

omit [ICongestionControl σ] in
theorem Outcome.resetTcb (h : m.Outcome p cb) (hq : m.heap q = some t) :
    (m.resetTcb q).Outcome p cb := by
  unfold TCPConnectionManager.resetTcb
  split
  · have hless : Outcome p cb { m with activeConnections := m.activeConnections - 1 } :=
      h.congr rfl rfl
    exact hless.endTcb hq .rst
  · exact h.endTcb hq .rst

/-- **Every move keeps the books** of a connection that is already there. -/
theorem Move.outcome (hmove : Move o x s s') (hwf : s.mgr.WellFormed) (hlt : p < s.mgr.nextAddr)
    (h : s.mgr.Outcome p cb) : s'.mgr.Outcome p cb := by
  cases hmove with
  | work hwork => exact hwork.outcome hwf hlt h
  | reply => exact h.undecided (.log _ rfl)
  | replace _ _ _ _ _ _ _ _ _ hold =>
    obtain ⟨t, hq, -⟩ := hwf.find hold
    exact h.remove hq hold .replaced
  | accept env => exact h.undecided (.openWith hlt env _ _ _)
  | simultaneousOpen env hx hq hs =>
    rw [simultaneousOpen_eq]
    refine h.undecided (.store hq rfl (by rw [hs]; rfl) rfl ?_)
    refine tidings_of_grows (P := fun ev => ev.tiding p = none) ⟨_, rfl, fun ev hev => ?_⟩
      fun _ => id
    rcases List.mem_pair.mp hev with rfl | rfl <;> rfl
  | @establish m q t t' seg c hx hq hack hopening hpath hstate =>
    have hs : t.state.isOpening = true := by
      rcases hopening.opening with hs | hs <;> rw [hs] <;> rfl
    rw [establish_store hpath.ptr]
    exact (h.establish hq hs (c := ⟨q, { c.tcb with state := .established }, _⟩) rfl rfl
      (hpath.grows.mono fun _ hev => hev.tiding p) rfl).congr rfl rfl
  | @receiveFin env m q t seg handler next hx hq hfin hseq hedge =>
    rw [receiveFin_of_heap hq]
    have hnext : (Event.moved q t.state next).tiding p = none := by
      generalize t.state = s at hedge
      cases hedge <;> rfl
    refine h.undecided (.turn hq hedge.isActive.1 hedge.isActive.2 rfl
      ⟨_, rfl, fun ev hev => ?_⟩)
    simp only [List.mem_cons, List.not_mem_nil, or_false] at hev
    rcases hev with rfl | rfl | rfl
    · rfl
    · rfl
    · exact hnext
  | @finAcked m q t next hq hedge =>
    have hnext : (Event.moved q t.state next).tiding p = none := by
      generalize t.state = s at hedge
      cases hedge <;> rfl
    exact h.undecided (.turn hq hedge.isActive.1 hedge.isActive.2 rfl (.single hnext))
  | @lastAck m q t hq hs =>
    have hk := hwf.mem_connections hq (by rw [hs]; decide) (by rw [hs]; decide)
    exact h.remove hq (hwf.findTcb_iff.mpr hk) .lastAck
  | rst hx hrst hfind hq => exact h.resetTcb hq
  | giveUp hq => exact h.endTcb hq .gaveUp
  | timeWaitEnd hq hs =>
    have hk := hwf.mem_connections hq (by rw [hs]; decide) (by rw [hs]; decide)
    exact h.remove hq (hwf.findTcb_iff.mpr hk) _
  | eraseClosed hq hs hk =>
    refine h.undecided (.eraseConnection fun r u hr hu => ?_)
    rw [Option.some.inj (hr.symm.trans (hwf.findTcb_iff.mpr hk)), hq] at hu
    cases hu
    rw [hs]
    rfl
  | eraseReset => exact h.undecided (.eraseListener hwf _)
  | timeWaitList => exact h.congr rfl rfl
  | release hq => exact h.undecided (.store hq rfl rfl rfl rfl)

/-! ## New connections -/

/-- What a move makes of the next address: nothing, or a TCB whose outcome, if it comes of
a connect, is open. -/
def Opens (m m' : TCPConnectionManager σ) : Prop :=
  m'.nextAddr = m.nextAddr ∨ m'.nextAddr = m.nextAddr + 1 ∧
    ((∀ ev ∈ m.trace, ev.ptr ≠ some m.nextAddr) →
      ∀ cb, .connecting m.nextAddr cb ∈ m'.trace → m'.Outcome m.nextAddr cb)

theorem CallMove.opens {a : Call} (hmove : CallMove a m m') : m.Opens m' := by
  cases hmove with
  | listen _ port onAccept =>
    rw [Opens, listen_trace]
    unfold TCPConnectionManager.listen
    split
    · exact Or.inl rfl
    · split
      · exact Or.inl rfl
      · exact Or.inr ⟨rfl, fun hsilent cb hev => absurd rfl (hsilent _ hev)⟩
  | unlisten port => exact Or.inl (eraseListener_nextAddr port)
  | connect env _ remoteIp remotePort localPort onConnect =>
    refine Or.inr ⟨rfl, fun hsilent cb hev => ?_⟩
    have hcb : onConnect = cb := by
      simp only [TCPConnectionManager.log, openWith, spawn, List.mem_append, List.mem_cons,
        List.not_mem_nil, or_false, reduceCtorEq, Event.connecting.injEq, true_and] at hev
      rcases hev with hold | heq
      · exact absurd rfl (hsilent _ hold)
      · exact heq.symm
    refine .pending _ (Function.update_self ..) rfl hcb ?_
    have hnone : tidings m.nextAddr m.trace = [] :=
      List.filterMap_eq_nil_iff.mpr fun ev hev => Event.tiding_of_ptr (hsilent ev hev)
    refine (tidings_snoc (by rfl)).trans ?_
    refine (tidings_of_grows (P := fun ev => ev.tiding m.nextAddr = none) ⟨_, rfl, ?_⟩
      fun _ => id).trans hnone
    intro ev hev
    simp only [List.mem_cons, List.not_mem_nil, or_false] at hev
    rcases hev with rfl | rfl | rfl <;> rfl
  | abort => exact Or.inl (eraseConnection_nextAddr _)
  | _ => exact Or.inl rfl

theorem Work.opens (hmove : Work x s s') : s.mgr.Opens s'.mgr := by
  cases hmove with
  | call _ _ hcall => exact hcall.opens
  | _ => exact Or.inl rfl

theorem Move.opens (hmove : Move o x s s') : s.mgr.Opens s'.mgr := by
  cases hmove with
  | work hwork => exact hwork.opens
  | replace =>
    exact Or.inl ((eraseConnection_nextAddr _).trans (endTcb_nextAddr _ _))
  | accept =>
    refine Or.inr ⟨rfl, fun hsilent cb hev => ?_⟩
    simp only [openWith, spawn, List.mem_append, List.mem_cons, List.not_mem_nil, or_false,
      reduceCtorEq] at hev
    exact absurd rfl (hsilent _ hev)
  | establish hx hq hack hopening hpath =>
    rw [establish_store hpath.ptr]
    exact Or.inl rfl
  | receiveFin env hx hq =>
    rw [receiveFin_of_heap hq]
    exact Or.inl rfl
  | lastAck => exact Or.inl ((eraseConnection_nextAddr _).trans (endTcb_nextAddr _ _))
  | rst =>
    refine Or.inl ?_
    unfold resetTcb
    split <;> exact endTcb_nextAddr _ _
  | giveUp => exact Or.inl (endTcb_nextAddr _ _)
  | timeWaitEnd => exact Or.inl ((eraseConnection_nextAddr _).trans (endTcb_nextAddr _ _))
  | eraseClosed => exact Or.inl (eraseConnection_nextAddr _)
  | eraseReset => exact Or.inl (eraseListener_nextAddr _)
  | _ => exact Or.inl rfl

/-! ## Every connect has an outcome -/

/-- Every connect has an outcome. -/
def Answers (m : TCPConnectionManager σ) : Prop :=
  ∀ p cb, .connecting p cb ∈ m.trace → m.Outcome p cb

theorem Move.answers (hmove : Move o x s s') (hwf : s.mgr.WellFormed) (hmade : s.mgr.Made)
    (h : s.mgr.Answers) : s'.mgr.Answers := by
  intro p cb hev
  rcases (hmove.logged hwf).mem hev with hold | hnew
  · exact hmove.outcome hwf (hmade _ hold p rfl) (h p cb hold)
  · -- only a new connection is asked for
    cases hnew with
    | conn _ hfrom => cases hfrom
    | connecting hn =>
      rcases hmove.opens with heq | ⟨-, hopens⟩
      · rw [heq] at hn
        exact absurd hn (Nat.lt_irrefl _)
      · exact hopens (fun _ => hmade.silent) cb hev

theorem Reachable.answers (h : m.Reachable) : m.Answers := by
  obtain ⟨localIp, xs, rfl⟩ := h
  have hstep : ∀ (m : TCPConnectionManager σ) x, m.WellFormed ∧ m.Made ∧ m.Answers →
      (m.step x).WellFormed ∧ (m.step x).Made ∧ (m.step x).Answers := fun m x hm =>
    ⟨hm.1.step x, (path_step hm.1 x).invariant (P := fun s => s.mgr.Made ∧ s.mgr.Answers)
      (fun _ _ hwf hmove hs => ⟨hmove.made hwf hs.1, hmove.answers hwf hs.1 hs.2⟩) hm.1 hm.2⟩
  refine (GuardedRun.run_invariant hstep ⟨WellFormed.init localIp, ?_, ?_⟩ xs).2.2
  · exact fun _ hev => absurd hev List.not_mem_nil
  · exact fun _ _ hev => absurd hev List.not_mem_nil

/-- **A connect is answered at most once**, in every reachable state; and when its TCB has
left the table, exactly once and rightly if and only if it was not given up while it opened: by a
RST, by `close()`, by the timer, or by a connection filed in its place. -/
theorem connect_answered_iff (h : m.Reachable) (hasked : .connecting p cb ∈ m.trace) :
    (reports p m.trace).length ≤ 1 ∧ ((∀ k, (k, p) ∉ m.connections) →
      (reports p m.trace = [(cb, if .established ∈ tidings p m.trace then 0 else -1)] ↔
        .abandoned ∉ tidings p m.trace)) := by
  cases h.answers p cb hasked with
  | pending t hp hs hcb hnone =>
    refine ⟨by simp [reports, hnone], fun hgone => ?_⟩
    have hk : (t.tTuple, p) ∈ m.connections := by
      refine h.wellFormed.mem_connections hp ?_ ?_ <;>
      · intro heq
        rw [heq] at hs
        cases hs
    exact absurd hk (hgone t.tTuple)
  | established hp hsaid =>
    have htold : reports p m.trace = [(cb, 0)] := by
      rw [reports, hsaid]
      rfl
    simp [htold, hsaid]
  | abandoned hp hsaid =>
    have htold : reports p m.trace = [] := by
      rw [reports, hsaid]
      rfl
    simp [htold, hsaid]

/-! ### A connection refused -/

/-- A host that connects from its port 80 to port 4000 of the peer, with callback 5; its
initial number is 100. -/
def connecting : List (Input (TCPCubic Unit)) :=
  [⟨.silent 0 100, .call (.connect 0x0a000002 4000 80 (some 5))⟩]

/-- The peer accepts, and resets the connection afterwards: the caller was told. -/
theorem accepted_answered :
    reports 0 (GuardedRun.run TCPConnectionManager.step (init 0x0a000001) (connecting ++
      [⟨.silent 1 0, .segment (fromPeer (TCPFlags.syn ||| TCPFlags.ack) 7000 101)⟩,
        ⟨.silent 2 0, .segment (fromPeer TCPFlags.rst 7001 0)⟩])).trace = [(some 5, 0)] := by
  generalize hxs : connecting ++ [_, _] = xs
  have hasked : .connecting 0 (some 5) ∈
      (GuardedRun.run TCPConnectionManager.step (init 0x0a000001) xs).trace := by
    subst hxs
    decide +kernel
  have hanswer := (connect_answered_iff ⟨0x0a000001, xs, rfl⟩ hasked).2 (fun k hk => ?_)
  · rw [hanswer.mpr (by subst hxs; decide +kernel)]
    subst hxs
    decide +kernel
  · subst hxs
    have hnone : (GuardedRun.run TCPConnectionManager.step (init 0x0a000001) (connecting ++
      [⟨.silent 1 0, .segment (fromPeer (TCPFlags.syn ||| TCPFlags.ack) 7000 101)⟩,
        ⟨.silent 2 0, .segment (fromPeer TCPFlags.rst 7001 0)⟩])).connections = [] := by
      decide +kernel
    rw [hnone] at hk
    exact List.not_mem_nil hk

/-- The peer refuses, and nobody is told. -/
theorem refused_unanswered : ¬ ∀ (m : TCPConnectionManager (TCPCubic Unit)) p cb, m.Reachable →
    .connecting p cb ∈ m.trace → (reports p m.trace).length ≤ 1 ∧
      ((∀ k, (k, p) ∉ m.connections) →
        reports p m.trace = [(cb, if .established ∈ tidings p m.trace then 0 else -1)]) := by
  intro hclaim
  generalize hxs : connecting ++
    [⟨.silent 1 0, .segment (fromPeer (TCPFlags.rst ||| TCPFlags.ack) 0 101)⟩] = xs
  have hrefused :
      (GuardedRun.run TCPConnectionManager.step (init 0x0a000001) xs).connections = [] ∧
      tidings 0 (GuardedRun.run TCPConnectionManager.step (init 0x0a000001) xs).trace =
        [.abandoned] := by
    subst hxs
    decide +kernel
  have hone := (hclaim (GuardedRun.run TCPConnectionManager.step (init 0x0a000001) xs) 0 (some 5)
    ⟨0x0a000001, xs, rfl⟩ (by subst hxs; decide +kernel)).2 fun k hk => by
      rw [hrefused.1] at hk
      exact List.not_mem_nil hk
  rw [reports, hrefused.2] at hone
  exact absurd hone (by decide)

end TCPConnectionManager

end NeuStack
