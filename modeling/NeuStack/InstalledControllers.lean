import NeuStack.ManagerPaths

/-! # Which controller a connection has

With the AI part compiled in, `create_tcb` installs a `TCPOrca`, and the layer above may
replace it by a `TCPCubic` and back.  So a TCB's controller is one of the two
(`Controller`), or it is a listener's, which has none.

Nothing that the manager does changes the kind of a controller (`KindStep`): what is alive
after an entry either was there with a controller of the same kind, or is new.
-/
namespace NeuStack

/-- `TCPCubic` or `TCPOrca`, told apart as `dynamic_cast` does. -/
inductive Controller (φ : Type) where
  | cubic (c : TCPCubic φ)
  | orca (c : TCPOrca φ)

inductive ControllerKind where
  | cubic | orca
  deriving DecidableEq, Repr

namespace Controller
variable {φ : Type}

def kind : Controller φ → ControllerKind
  | cubic _ => .cubic
  | orca _ => .orca

variable [OrcaFloat φ]

/-- `create_tcb` installs a `TCPOrca`. -/
instance : ICongestionControl (Controller φ) where
  create mss := orca (ICongestionControl.create mss)
  onAck
    | cubic c, bytesAcked, rttUs, now => cubic (ICongestionControl.onAck c bytesAcked rttUs now)
    | orca c, bytesAcked, rttUs, now => orca (ICongestionControl.onAck c bytesAcked rttUs now)
  onLoss
    | cubic c, bytesLost => cubic (ICongestionControl.onLoss c bytesLost)
    | orca c, bytesLost => orca (ICongestionControl.onLoss c bytesLost)
  cwnd
    | cubic c => ICongestionControl.cwnd c
    | orca c => ICongestionControl.cwnd c
  ssthresh
    | cubic c => ICongestionControl.ssthresh c
    | orca c => ICongestionControl.ssthresh c

end Controller

variable {φ : Type}

/-- The kind of a TCB's controller, if it has one of the two. -/
def CongestionControl.kind : CongestionControl (Controller φ) → Option ControllerKind
  | .reno _ => none
  | .other c => some c.kind

/-- The kind of a TCB's controller. -/
def TCB.kind (t : TCB (Controller φ)) : Option ControllerKind :=
  t.congestionControl.bind CongestionControl.kind

variable [OrcaFloat φ]

/-! ## A controller keeps its kind -/

namespace CongestionControl
variable (cc : CongestionControl (Controller φ))

theorem onAck_kind (bytesAcked rttUs : UInt32) (now : Nat) :
    (cc.onAck bytesAcked rttUs now).kind = cc.kind := by
  cases cc with
  | reno r => rfl
  | other c => cases c <;> rfl

theorem onLoss_kind (bytesLost : UInt32) : (cc.onLoss bytesLost).kind = cc.kind := by
  cases cc with
  | reno r => rfl
  | other c => cases c <;> rfl

omit [OrcaFloat φ] in
theorem reno_kind {f : CongestionControl (Controller φ) → CongestionControl (Controller φ)}
    (hf : f = renoDupAck ∨ f = renoTimeout) : (f cc).kind = cc.kind := by
  rcases hf with rfl | rfl <;> cases cc <;> rfl

end CongestionControl

omit [OrcaFloat φ] in
theorem TCB.kind_map {t t' : TCB (Controller φ)}
    {f : CongestionControl (Controller φ) → CongestionControl (Controller φ)}
    (ht : t'.congestionControl = t.congestionControl.map f) (hf : ∀ cc, (f cc).kind = cc.kind) :
    t'.kind = t.kind := by
  rw [TCB.kind, TCB.kind, ht]
  cases t.congestionControl with
  | none => rfl
  | some cc => exact hf cc

omit [OrcaFloat φ] in
theorem TCB.kind_congr {t t' : TCB (Controller φ)}
    (ht : t'.congestionControl = t.congestionControl) : t'.kind = t.kind := by
  rw [TCB.kind, TCB.kind, ht]

namespace Conn
variable {x : Option TCPSegment} {c c' : Conn (Controller φ)}

theorem Move.kind (h : Move x c c') : c'.tcb.kind = c.tcb.kind := by
  cases h with
  | loss c => exact TCB.kind_map rfl fun cc => cc.onLoss_kind 0
  | reno c f hf => exact TCB.kind_map rfl fun cc => cc.reno_kind hf
  | advance env c => exact TCB.kind_map rfl fun cc => cc.onAck_kind _ _ _
  | ack | delayedAck | drain | transmitData | deferredFin | finish =>
    
    refine TCB.kind_congr ?_
    simp only [drainStep, setState_tcb, buffer_tcb, sendSegment_congestionControl, log_tcb]
  | resend | resendBare | probe =>
    refine TCB.kind_congr ?_
    simp only [rawSend_tcb, sendZeroWindowProbe_tcb]
  | _ => rfl

theorem Path.kind (h : Path x c c') : c'.tcb.kind = c.tcb.kind := by
  induction h with
  | refl => rfl
  | tail _ hmove ih => exact hmove.kind.trans ih

end Conn

/-! ## The manager -/

namespace TCPConnectionManager
variable {m m' : TCPConnectionManager (Controller φ)} {p q : Ptr} {t : TCB (Controller φ)}
  {k : TCPTuple}

/-- The controllers that stay keep their kind, and none is new. -/
structure KindKept (m m' : TCPConnectionManager (Controller φ)) : Prop where
  heap : ∀ p u, m'.heap p = some u → ∃ t, m.heap p = some t ∧ u.kind = t.kind
  connections : ∀ e ∈ m'.connections, e ∈ m.connections
  listeners : ∀ e ∈ m'.listeners, e ∈ m.listeners
  nextAddr : m'.nextAddr = m.nextAddr

namespace KindKept
variable {m'' : TCPConnectionManager (Controller φ)}

omit [OrcaFloat φ] in
theorem of_heap (hheap : m'.heap = m.heap) (hconn : m'.connections = m.connections)
    (hlist : m'.listeners = m.listeners) (hnext : m'.nextAddr = m.nextAddr) : KindKept m m' :=
  ⟨fun _ u hu => ⟨u, hheap ▸ hu, rfl⟩, fun _ he => hconn ▸ he, fun _ he => hlist ▸ he, hnext⟩

omit [OrcaFloat φ] in
theorem trans (h : KindKept m m') (h' : KindKept m' m'') : KindKept m m'' where
  heap p u hu := by
    obtain ⟨v, hv, hkind⟩ := h'.heap p u hu
    obtain ⟨t, ht, hkind'⟩ := h.heap p v hv
    exact ⟨t, ht, hkind.trans hkind'⟩
  connections e he := h.connections e (h'.connections e he)
  listeners e he := h.listeners e (h'.listeners e he)
  nextAddr := h'.nextAddr.trans h.nextAddr

omit [OrcaFloat φ] in
theorem log (m : TCPConnectionManager (Controller φ)) (ev : Event) : KindKept m (m.log ev) :=
  .of_heap rfl rfl rfl rfl

omit [OrcaFloat φ] in
theorem store (hp : m.heap p = some t) {c : Conn (Controller φ)} (hptr : c.ptr = p)
    (hkind : c.tcb.kind = t.kind) : KindKept m (m.store c) := by
  subst hptr
  refine ⟨fun q u hu => ?_, fun _ => id, fun _ => id, rfl⟩
  rcases eq_or_ne q c.ptr with rfl | hne
  · rw [store_heap_self] at hu
    cases hu
    exact ⟨t, hp, hkind⟩
  · exact ⟨u, (store_heap_ne m hne).symm.trans hu, rfl⟩

omit [OrcaFloat φ] in
theorem eraseConnection (m : TCPConnectionManager (Controller φ)) (k : TCPTuple) :
    KindKept m (m.eraseConnection k) := by
  refine ⟨fun p u hu => ⟨u, eraseConnection_heap_some hu, rfl⟩, ?_, ?_, ?_⟩ <;>
    rw [TCPConnectionManager.eraseConnection] <;> split
  · exact fun _ => id
  · exact fun _ he => (List.mem_filter.mp he).1
  · exact fun _ => id
  · exact fun _ => id
  · rfl
  · rfl

omit [OrcaFloat φ] in
theorem eraseListener (m : TCPConnectionManager (Controller φ)) (port : UInt16) :
    KindKept m (m.eraseListener port) := by
  refine ⟨fun p u hu => ⟨u, eraseListener_heap_some hu, rfl⟩, ?_, ?_, ?_⟩ <;>
    rw [TCPConnectionManager.eraseListener] <;> split
  · exact fun _ => id
  · exact fun _ => id
  · exact fun _ => id
  · exact fun _ he => (List.mem_filter.mp he).1
  · rfl
  · rfl

omit [OrcaFloat φ] in
theorem endTcb (m : TCPConnectionManager (Controller φ)) (p : Ptr) (cause : EndCause) :
    KindKept m (m.endTcb p cause) := by
  cases hp : m.heap p with
  | none =>
    rw [TCPConnectionManager.endTcb, on_of_freed hp]
    exact .of_heap rfl rfl rfl rfl
  | some t =>
    rw [endTcb_of_heap hp]
    exact .store hp rfl rfl

omit [OrcaFloat φ] in
theorem resetTcb (m : TCPConnectionManager (Controller φ)) (p : Ptr) :
    KindKept m (m.resetTcb p) := by
  rw [TCPConnectionManager.resetTcb]
  split
  · have hcount : KindKept m { m with activeConnections := m.activeConnections - 1 } :=
      .of_heap rfl rfl rfl rfl
    exact hcount.trans (endTcb _ p _)
  · exact endTcb m p _

end KindKept

/-- **What a move does to the controllers**: those that stay keep their kind; a new
connection has a `TCPOrca`, a new listener has none. -/
inductive KindStep (m m' : TCPConnectionManager (Controller φ)) : Prop
  | kept (h : KindKept m m')
  | opened {t : TCB (Controller φ)} {k : TCPTuple} (hkind : t.kind = some .orca)
      (hheap : m'.heap = Function.update m.heap m.nextAddr (some t))
      (hconn : m'.connections = (k, m.nextAddr) :: m.connections)
      (hlist : m'.listeners = m.listeners) (hnext : m'.nextAddr = m.nextAddr + 1)
  | listening {t : TCB (Controller φ)} {port : UInt16} (hkind : t.kind = none)
      (hheap : m'.heap = Function.update m.heap m.nextAddr (some t))
      (hconn : m'.connections = m.connections)
      (hlist : m'.listeners = (port, m.nextAddr) :: m.listeners)
      (hnext : m'.nextAddr = m.nextAddr + 1)

omit [OrcaFloat φ] in
theorem KindStep.listen (m : TCPConnectionManager (Controller φ)) (port : UInt16)
    (onAccept : Option Callback) : KindStep m (m.listen port onAccept) := by
  rw [TCPConnectionManager.listen]
  split
  · exact .kept (.of_heap rfl rfl rfl rfl)
  · split
    · exact .kept (.of_heap rfl rfl rfl rfl)
    · exact .listening rfl rfl rfl rfl rfl

/-! ### The moves -/

variable {a : Call} {x : Input (Controller φ)} {o : TCPConnectionManager (Controller φ)}
  {s s' : Stage (Controller φ)}

omit [OrcaFloat φ] in
theorem kind_sendSyn (t : TCB (Controller φ)) (now : Nat) (flags : UInt8) (st : TCPState) :
    ({ t.sendSyn now flags with state := st } : TCB (Controller φ)).kind = t.kind :=
  TCB.kind_congr rfl

theorem CallMove.kindStep (h : CallMove a m m') : KindStep m m' := by
  cases h with
  | conn _ hp hstep => exact .kept (.store hp hstep.path.ptr hstep.path.kind)
  | setCallbacks _ _ _ hp => exact .kept (.store hp rfl rfl)
  | setDefaultOptions => exact .kept (.of_heap rfl rfl rfl rfl)
  | listen => exact .listen _ _ _
  | unlisten => exact .kept (.eraseListener _ _)
  | connect env => exact .opened (kind_sendSyn ..) rfl rfl rfl rfl
  | abort hp hs => exact .kept ((KindKept.log _ _).trans (.eraseConnection _ _))

theorem Work.kindStep (h : Work x s s') : KindStep s.mgr s'.mgr := by
  cases h with
  | call _ _ hcall => exact hcall.kindStep
  | conn _ hp hstep => exact .kept (.store hp hstep.path.ptr hstep.path.kind)
  | notifyClose => exact .kept (.log _ _)
  | deliver => exact .kept (.log _ _)
  | deliverOoo => exact .kept (.log _ _)
  | advanceRcv hp => exact .kept (.store hp rfl rfl)
  | popOoo hp =>
    refine .kept (.store hp rfl (TCB.kind_congr ?_))
    rw [TCPConnectionManager.popOoo]
    split <;> rfl
  | stash _ hp =>
    refine .kept (.store hp rfl (TCB.kind_congr ?_))
    rw [addToOooQueue]
    split <;> rfl

theorem Move.kindStep (h : Move o x s s') : KindStep s.mgr s'.mgr := by
  cases h with
  | work hwork => exact hwork.kindStep
  | reply => exact .kept (.log _ _)
  | replace => exact .kept ((KindKept.endTcb _ _ _).trans (.eraseConnection _ _))
  | accept env => exact .opened (kind_sendSyn ..) rfl rfl rfl rfl
  | simultaneousOpen env hx hp =>
    rw [simultaneousOpen_eq]
    exact .kept (.store hp rfl (kind_sendSyn ..))
  | @establish m p t t' seg c hx hp hack hopening hpath =>
    have hkind : t'.kind = t.kind := by cases hopening <;> rfl
    rw [establish_store hpath.ptr]
    refine .kept ((KindKept.store hp rfl ?_).trans (.of_heap rfl rfl rfl rfl))
    · exact hpath.kind.trans hkind
  | receiveFin env hx hp =>
    rw [receiveFin_of_heap hp]
    exact .kept (.store hp rfl rfl)
  | finAcked hp => exact .kept (.store hp rfl rfl)
  | lastAck => exact .kept ((KindKept.endTcb _ _ _).trans (.eraseConnection _ _))
  | rst => exact .kept (.resetTcb _ _)
  | giveUp => exact .kept (.endTcb _ _ _)
  | timeWaitEnd => exact .kept ((KindKept.endTcb _ _ _).trans (.eraseConnection _ _))
  | eraseClosed => exact .kept (.eraseConnection _ _)
  | eraseReset => exact .kept (.eraseListener _ _)
  | timeWaitList => exact .kept (.of_heap rfl rfl rfl rfl)
  | release hp => exact .kept (.store hp rfl rfl)

/-! ### Entries -/

/-- Connections have a controller, listeners have none. -/
structure Installed (m : TCPConnectionManager (Controller φ)) : Prop where
  connection : ∀ k p t, (k, p) ∈ m.connections → m.heap p = some t → t.kind ≠ none
  listener : ∀ port p t, (port, p) ∈ m.listeners → m.heap p = some t → t.kind = none

omit [OrcaFloat φ] in
theorem Installed.init (localIp : UInt32) :
    (TCPConnectionManager.init localIp : TCPConnectionManager (Controller φ)).Installed :=
  ⟨fun _ _ _ he => absurd he List.not_mem_nil, fun _ _ _ he => absurd he List.not_mem_nil⟩

omit [OrcaFloat φ] in
theorem Installed.kindStep (h : m.Installed) (hwf : m.WellFormed) (hstep : KindStep m m') :
    m'.Installed := by
  have hconn : ∀ k p, (k, p) ∈ m.connections → p ≠ m.nextAddr := by
    intro k p he
    obtain ⟨t, ht, -⟩ := hwf.connection k p he
    exact hwf.ne_nextAddr ht
  have hlist : ∀ port p, (port, p) ∈ m.listeners → p ≠ m.nextAddr := by
    intro port p he
    obtain ⟨t, ht, -⟩ := hwf.listener port p he
    exact hwf.ne_nextAddr ht
  cases hstep with
  | kept hkept =>
    constructor
    · intro k p u he hu
      obtain ⟨t, ht, hkind⟩ := hkept.heap p u hu
      rw [hkind]
      exact h.connection k p t (hkept.connections _ he) ht
    · intro port p u he hu
      obtain ⟨t, ht, hkind⟩ := hkept.heap p u hu
      rw [hkind]
      exact h.listener port p t (hkept.listeners _ he) ht
  | opened hkind hheap hconn' hlist' =>
    constructor
    · intro k p u he hu
      rw [hheap] at hu
      rw [hconn'] at he
      rcases List.mem_cons.mp he with heq | he
      · obtain ⟨-, rfl⟩ := Prod.mk.inj heq
        rw [Function.update_self] at hu
        rw [← Option.some.inj hu, hkind]
        exact Option.some_ne_none _
      · rw [Function.update_of_ne (hconn k p he)] at hu
        exact h.connection k p u he hu
    · intro port p u he hu
      rw [hlist'] at he
      rw [hheap, Function.update_of_ne (hlist port p he)] at hu
      exact h.listener port p u he hu
  | listening hkind hheap hconn' hlist' =>
    constructor
    · intro k p u he hu
      rw [hconn'] at he
      rw [hheap, Function.update_of_ne (hconn k p he)] at hu
      exact h.connection k p u he hu
    · intro port p u he hu
      rw [hheap] at hu
      rw [hlist'] at he
      rcases List.mem_cons.mp he with heq | he
      · obtain ⟨-, rfl⟩ := Prod.mk.inj heq
        rw [Function.update_self] at hu
        rw [← Option.some.inj hu]
        exact hkind
      · rw [Function.update_of_ne (hlist port p he)] at hu
        exact h.listener port p u he hu

/-- What is alive in `m` either was alive in `o`, with a controller of the same kind, or
is new, with a `TCPOrca` if it has a controller. -/
structure KindsSince (o m : TCPConnectionManager (Controller φ)) : Prop where
  nextAddr_le : o.nextAddr ≤ m.nextAddr
  old : ∀ p u, p < o.nextAddr → m.heap p = some u → ∃ t, o.heap p = some t ∧ u.kind = t.kind
  new : ∀ p u, o.nextAddr ≤ p → m.heap p = some u → u.kind = none ∨ u.kind = some .orca

omit [OrcaFloat φ] in
theorem KindsSince.kindStep (h : KindsSince o m) (hstep : KindStep m m') : KindsSince o m' := by
  have hupdate : ∀ t : TCB (Controller φ), (t.kind = none ∨ t.kind = some .orca) →
      m'.heap = Function.update m.heap m.nextAddr (some t) → m'.nextAddr = m.nextAddr + 1 →
      KindsSince o m' := by
    intro t ht hheap hnext
    have hle := h.nextAddr_le
    refine ⟨hnext ▸ Nat.le_succ_of_le hle, fun p u hlt hu => ?_, fun p u hge hu => ?_⟩
    · rw [hheap, Function.update_of_ne (Nat.ne_of_lt (Nat.lt_of_lt_of_le hlt hle))] at hu
      exact h.old p u hlt hu
    · rw [hheap] at hu
      rcases eq_or_ne p m.nextAddr with rfl | hne
      · rw [Function.update_self] at hu
        cases hu
        exact ht
      · rw [Function.update_of_ne hne] at hu
        exact h.new p u hge hu
  cases hstep with
  | kept hkept =>
    refine ⟨hkept.nextAddr ▸ h.nextAddr_le, fun p u hlt hu => ?_, fun p u hge hu => ?_⟩
    · obtain ⟨v, hv, hkind⟩ := hkept.heap p u hu
      obtain ⟨t, ht, hkind'⟩ := h.old p v hlt hv
      exact ⟨t, ht, hkind.trans hkind'⟩
    · obtain ⟨v, hv, hkind⟩ := hkept.heap p u hu
      rw [hkind]
      exact h.new p v hge hv
  | opened hkind hheap _ _ hnext => exact hupdate _ (Or.inr hkind) hheap hnext
  | listening hkind hheap _ _ hnext => exact hupdate _ (Or.inl hkind) hheap hnext

/-- **What an entry does to the controllers.** -/
theorem kinds_step (h : m.WellFormed) (hi : m.Installed) (x : Input (Controller φ)) :
    (m.step x).Installed ∧ KindsSince m (m.step x) := by
  have hstart : m.Installed ∧ KindsSince m m := by
    refine ⟨hi, Nat.le_refl _, fun p u _ hu => ⟨u, hu, rfl⟩, fun p u hge hu => ?_⟩
    exact absurd (h.fresh p u hu) (Nat.not_lt.mpr hge)
  refine (path_step h x).invariant (P := fun s => s.mgr.Installed ∧ KindsSince m s.mgr)
    (fun s s' hwf hmove hs => ?_) h hstart
  exact ⟨hs.1.kindStep hwf hmove.kindStep, hs.2.kindStep hmove.kindStep⟩

end TCPConnectionManager
end NeuStack
