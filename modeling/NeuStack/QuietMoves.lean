import NeuStack.TCBInvariants

/-! # Between two acknowledgements

What the manager does to a TCB besides processing acknowledgements (`TCB.Quiet`),
function by function where `TCB.Change` only says which fields are written.  A
handler is the acknowledgement, and quiet moves behind it: they are the moves of
the same segment without its ACK flag (`unacked`).
-/
namespace NeuStack
variable {σ : Type} [ICongestionControl σ]

omit [ICongestionControl σ] in
open TCPConnectionManager in
/-- **Where the state goes** but for the FIN of the connection itself. -/
inductive TCPState.Turns : TCPState → TCPState → Prop
  | closed (s : TCPState) : Turns s .closed
  | reopened : Turns .synSent .synRcvd
  | established {s : TCPState} (hs : s = .synSent ∨ s = .synRcvd) : Turns s .established
  | fin {handler s next : TCPState} (h : FinEdge handler s next) : Turns s next
  | acked {s next : TCPState} (h : AckEdge s next) : Turns s next

theorem TCPState.Turns.alive {s next : TCPState} (h : s.Turns next) :
    next = .closed ∨ s ≠ .listen ∧ s ≠ .closed := by
  cases h with
  | closed => exact Or.inl rfl
  | reopened => exact Or.inr ⟨nofun, nofun⟩
  | established hs => rcases hs with rfl | rfl <;> exact Or.inr ⟨nofun, nofun⟩
  | fin hedge =>
    have hact := hedge.isActive.1
    exact Or.inr ⟨TCPState.ne_listen_of_isActive hact, TCPState.ne_closed_of_isActive hact⟩
  | acked hedge =>
    have hact := hedge.isActive.1
    exact Or.inr ⟨TCPState.ne_listen_of_isActive hact, TCPState.ne_closed_of_isActive hact⟩

open TCPConnectionManager in
/-- **What happens to a TCB besides processing an acknowledgement.** -/
inductive TCB.Quiet : TCB σ → TCB σ → Prop
  | conn {c c' : Conn σ} (h : Conn.ConnStep none c c') : Quiet c.tcb c'.tcb
  | callbacks (t : TCB σ) (onReceive onClose : Option Callback) :
      Quiet t { t with onReceive, onClose }
  | receiveSyn (t : TCB σ) (seg : TCPSegment) : Quiet t (receiveSyn seg t)
  | rcvNxt (t : TCB σ) (seq : BitVec 32) : Quiet t (setRcvNxt seq t)
  | popOoo (t : TCB σ) : Quiet t (popOoo t)
  | stash (t : TCB σ) (seq : BitVec 32) (data : List UInt8) : Quiet t (addToOooQueue seq data t)
  | reopen (t : TCB σ) (seg : TCPSegment) (now : Nat) (hs : t.state = .synSent) :
      Quiet t ((rewind seg t).sendSyn now (TCPFlags.syn ||| TCPFlags.ack))
  | state (t : TCB σ) (s : TCPState) (hs : t.state.Turns s) : Quiet t { t with state := s }
  | release (t : TCB σ) : Quiet t (releaseBuffers t)

/-- A sequence of such steps. -/
abbrev TCB.Quiets : TCB σ → TCB σ → Prop := Relation.ReflTransGen TCB.Quiet

/-- Without an acknowledgement, the segment is not looked at. -/
theorem Conn.ConnStep.quiet {y : Option TCPSegment} {c c' : Conn σ} (h : Conn.ConnStep y c c')
    (hy : ∀ seg, y = some seg → seg.isAck = false) : Conn.ConnStep none c c' := by
  cases h with
  | send env c data => exact .send env c data
  | finish env c hs => exact .finish env c hs
  | processAck env c seg hx hack =>
    rw [hy seg hx] at hack
    cases hack
  | ack env c hs => exact .ack env c hs
  | acknowledgeData env c hs => exact .acknowledgeData env c hs
  | updateRcvWnd c hs => exact .updateRcvWnd c hs
  | checkDelayedAck env c => exact .checkDelayedAck env c
  | checkZeroWindowProbe env c => exact .checkZeroWindowProbe env c
  | countRetransmit c => exact .countRetransmit c
  | retransmit env c => exact .retransmit env c

namespace TCPConnectionManager
variable {m m' o : TCPConnectionManager σ} {p q : Ptr} {t u v : TCB σ} {x : Input σ}
  {s s' : Stage σ} {a : Call}

/-- **Nothing is acknowledged on the way from `m` to `m'`**: a TCB that is alive comes of
the one before, or of a new one, by quiet steps. -/
structure Quietly (m m' : TCPConnectionManager σ) : Prop where
  nextAddr_le : m.nextAddr ≤ m'.nextAddr
  tcb : ∀ p u, m'.heap p = some u → (∃ t, m.heap p = some t ∧ t.Quiets u) ∨
    m.nextAddr ≤ p ∧ ∃ t, TCB.New t ∧ t.Quiets u

namespace Quietly

theorem of_heap (hn : m.nextAddr ≤ m'.nextAddr)
    (h : ∀ p u, m'.heap p = some u → m.heap p = some u) : Quietly m m' :=
  ⟨hn, fun p u hu => Or.inl ⟨u, h p u hu, .refl⟩⟩

theorem refl (m : TCPConnectionManager σ) : Quietly m m := of_heap (Nat.le_refl _) fun _ _ => id

theorem trans {m'' : TCPConnectionManager σ} (h : Quietly m m') (h' : Quietly m' m'') :
    Quietly m m'' := by
  refine ⟨Nat.le_trans h.nextAddr_le h'.nextAddr_le, fun p u hu => ?_⟩
  rcases h'.tcb p u hu with ⟨v, hv, hquiet⟩ | ⟨hle, hnew⟩
  · rcases h.tcb p v hv with ⟨t, ht, hquiet'⟩ | ⟨hle, t, ht, hquiet'⟩
    · exact Or.inl ⟨t, ht, hquiet'.trans hquiet⟩
    · exact Or.inr ⟨hle, t, ht, hquiet'.trans hquiet⟩
  · exact Or.inr ⟨Nat.le_trans h.nextAddr_le hle, hnew⟩

theorem store {c : Conn σ} (hq : m.heap q = some v) (hptr : c.ptr = q) (h : v.Quiets c.tcb) :
    Quietly m (m.store c) := by
  subst hptr
  refine ⟨Nat.le_refl _, fun p u hu => Or.inl ?_⟩
  rcases eq_or_ne p c.ptr with rfl | hne
  · rw [store_heap_self] at hu
    cases hu
    exact ⟨v, hq, h⟩
  · exact ⟨u, (store_heap_ne m hne).symm.trans hu, .refl⟩

theorem alloc (ht : TCB.New t) (hn : m'.nextAddr = m.nextAddr + 1)
    (hheap : m'.heap = Function.update m.heap m.nextAddr (some t)) : Quietly m m' := by
  refine ⟨hn ▸ Nat.le_succ _, fun p u hu => ?_⟩
  rw [hheap] at hu
  rcases eq_or_ne p m.nextAddr with rfl | hne
  · rw [Function.update_self] at hu
    cases hu
    exact Or.inr ⟨Nat.le_refl _, t, ht, .refl⟩
  · rw [Function.update_of_ne hne] at hu
    exact Or.inl ⟨u, hu, .refl⟩

theorem eraseConnection (m : TCPConnectionManager σ) (k : TCPTuple) :
    Quietly m (m.eraseConnection k) := by
  refine of_heap ?_ fun _ _ => eraseConnection_heap_some
  rw [TCPConnectionManager.eraseConnection]
  split <;> exact Nat.le_refl _

theorem eraseListener (m : TCPConnectionManager σ) (port : UInt16) :
    Quietly m (m.eraseListener port) := by
  refine of_heap ?_ fun _ _ => eraseListener_heap_some
  rw [TCPConnectionManager.eraseListener]
  split <;> exact Nat.le_refl _

theorem endTcb (m : TCPConnectionManager σ) (q : Ptr) (cause : EndCause) :
    Quietly m (m.endTcb q cause) := by
  cases hq : m.heap q with
  | none =>
    rw [TCPConnectionManager.endTcb, on_of_freed hq]
    exact refl m
  | some t =>
    rw [endTcb_of_heap hq]
    exact store hq rfl (.single (.state t .closed (.closed _)))

theorem resetTcb (m : TCPConnectionManager σ) (q : Ptr) : Quietly m (m.resetTcb q) := by
  rw [TCPConnectionManager.resetTcb]
  split
  · have h := endTcb { m with activeConnections := m.activeConnections - 1 } q .rst
    exact ⟨h.nextAddr_le, h.tcb⟩
  · exact endTcb m q .rst

end Quietly

/-! ## The moves -/

theorem CallMove.quietly (hmove : CallMove a m m') : Quietly m m' := by
  cases hmove with
  | conn ha hq hstep => exact .store hq hstep.path.ptr (.single (.conn hstep))
  | @setCallbacks _ _ q t onReceive onClose _ hq =>
    exact .store hq rfl (.single (.callbacks t onReceive onClose))
  | setDefaultOptions => exact .of_heap (Nat.le_refl _) fun _ _ => id
  | listen _ port =>
    rw [TCPConnectionManager.listen]
    split
    · exact .refl m
    · split
      · exact .refl m
      · exact .alloc (.listen ..) rfl rfl
  | unlisten port => exact .eraseListener m port
  | connect env => exact .alloc (.connect env m ..) rfl rfl
  | @abort _ q t =>
    have hlog : Quietly m (m.log (.ended q .synSent .localClose)) :=
      .of_heap (Nat.le_refl _) fun _ _ => id
    exact hlog.trans (.eraseConnection _ _)

theorem Work.quietly (hwork : Work x s s') (hx : ∀ seg, x.seg = some seg → seg.isAck = false) :
    Quietly s.mgr s'.mgr := by
  cases hwork with
  | call _ _ hcall => exact hcall.quietly
  | conn _ hq hstep => exact .store hq hstep.path.ptr (.single (.conn (hstep.quiet hx)))
  | notifyClose => exact .of_heap (Nat.le_refl _) fun _ _ => id
  | deliver => exact .of_heap (Nat.le_refl _) fun _ _ => id
  | deliverOoo => exact .of_heap (Nat.le_refl _) fun _ _ => id
  | @advanceRcv m q t seq hq => exact .store hq rfl (.single (.rcvNxt t seq))
  | @popOoo m q t hq => exact .store hq rfl (.single (.popOoo t))
  | @stash m q t seg _ hq => exact .store hq rfl (.single (.stash t _ _))

theorem Move.quietly (hmove : Move o x s s') (hx : ∀ seg, x.seg = some seg → seg.isAck = false) :
    Quietly s.mgr s'.mgr := by
  cases hmove with
  | work hwork => exact hwork.quietly hx
  | reply => exact .of_heap (Nat.le_refl _) fun _ _ => id
  | replace => exact (Quietly.endTcb _ _ _).trans (.eraseConnection _ _)
  | accept env => exact .alloc (.accept env ..) rfl rfl
  | @simultaneousOpen env m q t seg hseg hq hs =>
    rw [simultaneousOpen_eq]
    refine .store hq rfl (.tail (.single (.reopen t seg env.now hs)) (.state _ .synRcvd ?_))
    rw [show ((rewind seg t).sendSyn env.now _).state = t.state from rfl, hs]
    exact .reopened
  | @establish m q t t' seg c hseg hq hack =>
    rw [hx seg hseg] at hack
    cases hack
  | @receiveFin env m q t seg handler next hseg hq hfin hseq hedge =>
    rw [receiveFin_of_heap hq]
    have hack : Conn.ConnStep none ⟨q, setRcvNxt (t.rcvNxt + 1) t, m.trace⟩ _ :=
      .ack env _ (Or.inl hedge.isActive.1)
    rw [Conn.sendSegment_ack] at hack
    exact .store hq rfl (.tail (.tail (.single (.rcvNxt t _)) (.conn hack))
      (.state _ next (.fin hedge)))
  | @finAcked m q t next hq hedge =>
    exact .store hq rfl (.single (.state t next (.acked hedge)))
  | lastAck => exact (Quietly.endTcb _ _ _).trans (.eraseConnection _ _)
  | rst => exact .resetTcb _ _
  | giveUp => exact .endTcb _ _ _
  | timeWaitEnd => exact (Quietly.endTcb _ _ _).trans (.eraseConnection _ _)
  | eraseClosed => exact .eraseConnection _ _
  | eraseReset => exact .eraseListener _ _
  | timeWaitList => exact .of_heap (Nat.le_refl _) fun _ _ => id
  | @release m q t hq => exact .store hq rfl (.single (.release t))

theorem Path.quietly (hpath : Path o x s s') (hx : ∀ seg, x.seg = some seg → seg.isAck = false) :
    Quietly s.mgr s'.mgr := by
  induction hpath with
  | refl => exact .refl _
  | tail _ hmove ih => exact ih.trans (hmove.quietly hx)

end TCPConnectionManager

/-! ## A segment without its acknowledgement -/

namespace TCPSegment

/-- The segment without its ACK flag. -/
def unacked (seg : TCPSegment) : TCPSegment := { seg with flags := seg.flags &&& 0xEF }

variable (seg : TCPSegment)

theorem isAck_unacked : seg.unacked.isAck = false := by
  rw [isAck, unacked, TCPFlags.has, UInt8.and_assoc,
    show (0xEF : UInt8) &&& TCPFlags.ack = 0 from rfl, UInt8.and_zero]
  rfl

theorem has_unacked {flag : UInt8} (h : 0xEF &&& flag = flag) :
    TCPFlags.has seg.unacked.flags flag = TCPFlags.has seg.flags flag := by
  rw [TCPFlags.has, unacked, UInt8.and_assoc, h]
  rfl

theorem isFin_unacked : seg.unacked.isFin = seg.isFin := seg.has_unacked rfl
theorem isRst_unacked : seg.unacked.isRst = seg.isRst := seg.has_unacked rfl

end TCPSegment

/-- The entry that brings the segment without its ACK flag. -/
def Context.unacked (ctx : Context σ) (seg : TCPSegment) : Input σ := ⟨ctx, .segment seg.unacked⟩

omit [ICongestionControl σ] in
theorem Context.unacked_seg (ctx : Context σ) (seg : TCPSegment) :
    ∀ seg', (ctx.unacked seg).seg = some seg' → seg'.isAck = false := by
  rintro seg' h
  cases h
  exact seg.isAck_unacked

namespace TCPConnectionManager
variable {m m' o : TCPConnectionManager σ} {p q : Ptr} {t u v : TCB σ} {x : Input σ}
  {ctx : Context σ} {seg : TCPSegment}

omit [ICongestionControl σ] in
theorem finInOrder_unacked (m : TCPConnectionManager σ) (p : Ptr) (seg : TCPSegment) :
    m.finInOrder p seg.unacked = m.finInOrder p seg := by
  rw [finInOrder, finInOrder, seg.isFin_unacked]
  rfl

/-- Behind the acknowledgement, the data part is quiet. -/
theorem path_payload_unacked (ctx : Context σ) (seg : TCPSegment) (h : Ready m p) :
    WorkPath (ctx.unacked seg) ⟨m, none⟩ ⟨m.handlePayload ctx p seg, none⟩ := by
  have hseg : (ctx.unacked seg).seg = some seg.unacked := rfl
  have hwork := path_handlePayload h hseg
  exact hwork

/-- The part behind the acknowledgement of a handler with tail `f`. -/
theorem quietly_behind (ctx : Context σ) (seg : TCPSegment) {s : TCPState}
    {f : TCPConnectionManager σ → TCPConnectionManager σ}
    (h : Ready m p) (hin : m.InState p s) (hact : s.isActive = true)
    (hf : ∀ m' s', m'.WellFormed → m'.InState p s' → s.Reaches s' →
      Path m' (ctx.unacked seg) ⟨m', none⟩ ⟨f m', none⟩) :
    Quietly m (f (m.handlePayload ctx p seg)) := by
  have hwork := path_payload_unacked ctx seg h
  obtain ⟨s', hreach, hin'⟩ :=
    hwork.kept h.wellFormed hin (TCPState.ne_synSent_of_isActive hact)
  exact (hwork.path (o := m).quietly (ctx.unacked_seg seg)).trans
    ((hf _ s' (h.work hwork).wellFormed hin' hreach).quietly (ctx.unacked_seg seg))

theorem quietly_handleEstablished {s : TCPState} (h : Ready (m.handleAck ctx.toEnv p seg) p)
    (hin : (m.handleAck ctx.toEnv p seg).InState p s) (hs : TCPState.established.Reaches s) :
    Quietly (m.handleAck ctx.toEnv p seg) (m.handleEstablished ctx p seg) := by
  rw [handleEstablished]
  refine quietly_behind ctx seg (f := fun m => if m.finInOrder p seg then
    (m.receiveFin ctx.toEnv p .established .closeWait).notifyClose ctx p else m) h hin
      (hs.isActive rfl) fun m' s' hwf hin' hreach => ?_
  have hseg : (ctx.unacked seg).seg = some seg.unacked := rfl
  have hpath := path_finEstablished (o := m') hwf hin' (hs.trans hreach) hseg
  rw [finInOrder_unacked] at hpath
  exact hpath

theorem quietly_handleFinWait1 (h : Ready (m.handleAck ctx.toEnv p seg) p)
    (hin : (m.handleAck ctx.toEnv p seg).InState p .finWait1) :
    Quietly (m.handleAck ctx.toEnv p seg) (m.handleFinWait1 ctx p seg) := by
  rw [handleFinWait1]
  generalize hacked : (seg.isAck && (m.handleAck ctx.toEnv p seg).allAcked p) = acked
  refine quietly_behind ctx seg (f := fun m => if m.finInOrder p seg then
      if acked then (m.receiveFin ctx.toEnv p .finWait1 .timeWait).startTimeWaitTimer ctx.toEnv p
      else m.receiveFin ctx.toEnv p .finWait1 .closing
    else if acked then m.on p (·.setState .finWait2)
    else m) h hin rfl fun m' s' hwf hin' hreach => ?_
  have hseg : (ctx.unacked seg).seg = some seg.unacked := rfl
  have hpath := path_finFinWait1 (o := m') hwf (hreach.eq rfl ▸ hin') acked hseg
  rw [finInOrder_unacked] at hpath
  exact hpath

theorem quietly_handleFinWait2 (h : Ready (m.handleAck ctx.toEnv p seg) p)
    (hin : (m.handleAck ctx.toEnv p seg).InState p .finWait2) :
    Quietly (m.handleAck ctx.toEnv p seg) (m.handleFinWait2 ctx p seg) := by
  rw [handleFinWait2]
  refine quietly_behind ctx seg (f := fun m => if m.finInOrder p seg then
    (m.receiveFin ctx.toEnv p .finWait2 .timeWait).startTimeWaitTimer ctx.toEnv p else m) h hin
      rfl fun m' s' hwf hin' hreach => ?_
  have hseg : (ctx.unacked seg).seg = some seg.unacked := rfl
  have hpath := path_finFinWait2 (o := m') hwf (hreach.eq rfl ▸ hin') hseg
  rw [finInOrder_unacked] at hpath
  exact hpath

/-- **In the states of a connection that is up, a segment is its acknowledgement, and quiet
moves behind it.** -/
theorem quietly_onSegmentReceived (h : m.WellFormed) (hfind : m.findTcb seg.tuple = some p)
    (hp : m.heap p = some t) (hact : t.state.isActive = true) (htw : t.state ≠ .timeWait)
    (hrst : seg.isRst = false) :
    Quietly (m.handleAck ctx.toEnv p seg) (m.onSegmentReceived ctx seg) := by
  have hin : m.InState p t.state :=
    ⟨t, hp, h.mem_connections hp (TCPState.ne_listen_of_isActive hact)
      (TCPState.ne_closed_of_isActive hact), rfl⟩
  have hseg : (⟨ctx, .segment seg⟩ : Input σ).seg = some seg := rfl
  have hready : Ready m p := hin.ready h hact
  have hwork := path_handleAck hready ctx.toEnv hseg
  have hready' := hready.work hwork
  obtain ⟨s', hreach, hin'⟩ := hwork.kept h hin (TCPState.ne_synSent_of_isActive hact)
  have hfind' : (m.findTcb seg.tuple <|> m.findListeningTcb seg.dstPort) = some p := by
    rw [hfind]
    rfl
  rw [onSegmentReceived, hfind']
  dsimp only
  rw [hrst, if_neg Bool.false_ne_true, hp]
  dsimp only
  cases hs : t.state with
  | closed => rw [hs] at hact; cases hact
  | listen => rw [hs] at hact; cases hact
  | synSent => rw [hs] at hact; cases hact
  | synRcvd => rw [hs] at hact; cases hact
  | timeWait => exact absurd hs htw
  | established => exact quietly_handleEstablished hready' hin' (hs ▸ hreach)
  | finWait1 =>
    rw [hs] at hreach
    exact quietly_handleFinWait1 hready' (hreach.eq rfl ▸ hin')
  | finWait2 =>
    rw [hs] at hreach
    exact quietly_handleFinWait2 hready' (hreach.eq rfl ▸ hin')
  | closeWait => exact .refl _
  | closing =>
    rw [hs] at hreach
    exact (path_ackedClosing (o := m) (x := ctx.unacked seg) hready'.wellFormed
      (hreach.eq rfl ▸ hin') _).quietly (ctx.unacked_seg seg)
  | lastAck =>
    rw [hs] at hreach
    exact (path_ackedLastAck (o := m) (x := ctx.unacked seg) hready'.wellFormed
      (hreach.eq rfl ▸ hin') _).quietly (ctx.unacked_seg seg)

end TCPConnectionManager
end NeuStack
