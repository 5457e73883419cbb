import NeuStack.AnsweringAcks
import NeuStack.ReceiveStream
import NeuStack.Retransmission
import NeuStack.TimeWaitEffects

/-! # Segments that are answered

A peer that sends the same segment again has missed our acknowledgement.  It is answered if
`handle_data` takes the data as new, or the FIN is the next number expected; otherwise only by
what is under way for another reason: a delayed acknowledgement, or something that the
acknowledgement in the segment sets free.  `segment_answered_iff` gives the exact condition for
each of the seven states, on the TCB before the segment comes.
-/
namespace NeuStack
variable {σ : Type}

namespace TCB

/-- The segment has data that `handle_data` does not take for old. -/
def BringsData (t : TCB σ) (seg : TCPSegment) : Prop :=
  seg.dataLength ≠ 0 ∧ seqLe seg.finSeq t.rcvNxt = false ∧
    ¬ (seqLt seg.seqNum t.rcvNxt = true ∧ seg.dataLength ≤ (t.rcvNxt - seg.seqNum).toNat)

/-- The segment has a FIN, and it is the next number expected. -/
def BringsFin (t : TCB σ) (seg : TCPSegment) : Prop :=
  seg.isFin = true ∧ seg.finSeq = t.rcvNxt

/-- With the segment, everything that was sent is acknowledged. -/
def AcksAll (t : TCB σ) (seg : TCPSegment) : Prop :=
  seg.isAck = true ∧ (if seqGt seg.ackNum t.sndUna then seg.ackNum else t.sndUna) = t.sndNxt

/-- The acknowledgement in the segment makes the connection send. -/
def SpeaksOn [ICongestionControl σ] (env : Env) (t : TCB σ) (seg : TCPSegment) : Prop :=
  seg.isAck = true ∧ t.AnswersAck env seg.ackNum seg.window

end TCB

namespace TCPConnectionManager
variable {m m' m₁ : TCPConnectionManager σ} {p : Ptr} {t u : TCB σ} {seg : TCPSegment}
  {tr : List Event} {n : BitVec 32}

/-- `start_time_wait_timer` makes room by dropping an entry of the tuple `k`. -/
def MakesRoom (m : TCPConnectionManager σ) (k : TCPTuple) : Prop :=
  k ∈ (m.timeWaitList.take (overflow m.timeWaitList)).map (·.2)

/-- **The connection at `p` has answered** since the events `tr`: a segment with ACK = `rcv_nxt`
is out, or a delayed acknowledgement is pending.  Of a connection that has been destroyed,
any acknowledgement it sent counts. -/
def Answered (m : TCPConnectionManager σ) (p : Ptr) (tr : List Event) : Prop :=
  match m.heap p with
  | some u => u.delayedAckPending = true ∨ Acknowledges p u.rcvNxt tr m.trace
  | none => ∃ n, Acknowledges p n tr m.trace

/-- **What makes a segment for the TCB `t` answered**, by the state it comes in. -/
def MakesAnswer [ICongestionControl σ] (m : TCPConnectionManager σ) (env : Env) (seg : TCPSegment)
    (t : TCB σ) : Prop :=
  match t.state with
  | .established | .finWait1 | .finWait2 =>
    t.BringsData seg ∨ t.BringsFin seg ∨ t.delayedAckPending = true ∨ t.SpeaksOn env seg
  | .closeWait => t.delayedAckPending = true ∨ t.SpeaksOn env seg
  | .closing =>
    (t.delayedAckPending = true ∧ ¬ (t.AcksAll seg ∧ m.MakesRoom t.tTuple)) ∨ t.SpeaksOn env seg
  | .lastAck => (t.delayedAckPending = true ∧ ¬ t.AcksAll seg) ∨ t.SpeaksOn env seg
  | .timeWait => t.delayedAckPending = true ∨ seg.isFin = true
  | .closed | .listen | .synSent | .synRcvd => False

/-! ## Reading an answer -/

theorem answered_of_heap (hp : m.heap p = some u) :
    m.Answered p tr ↔ u.delayedAckPending = true ∨ Acknowledges p u.rcvNxt tr m.trace := by
  rw [Answered, hp]

/-- An acknowledgement that is out stays out, while `rcv_nxt` does not move. -/
theorem Answered.of_acknowledges (hack : Acknowledges p n tr m.trace)
    (hle : m.trace <+: m'.trace) (hrcv : ∀ u, m'.heap p = some u → u.rcvNxt = n) :
    m'.Answered p tr := by
  rw [Answered]
  cases hu : m'.heap p with
  | none => exact ⟨n, hack.before hle⟩
  | some u => exact Or.inr ((hrcv u hu).symm ▸ hack.before hle)

/-- Where nothing is sent and the receive side stays, it is answered or not as before. -/
theorem answered_congr (hp : m.heap p = some t) (hp' : m'.heap p = some u) (hle : tr <+: m.trace)
    (hmute : Grows (Event.Mute p) m.trace m'.trace) (hrcv : u.rcvNxt = t.rcvNxt)
    (hpend : u.delayedAckPending = t.delayedAckPending) :
    m'.Answered p tr ↔ m.Answered p tr := by
  rw [answered_of_heap hp, answered_of_heap hp', hpend, hrcv]
  exact or_congr_right (Acknowledges.before_mute hle hmute)

/-- Where the TCB goes in silence, what it sent before counts. -/
theorem answered_of_gone (hgone : m'.heap p = none) (hle : tr <+: m.trace)
    (hmute : Grows (Event.Mute p) m.trace m'.trace) :
    m'.Answered p tr ↔ ∃ n, Acknowledges p n tr m.trace := by
  rw [Answered, hgone]
  exact exists_congr fun n => Acknowledges.before_mute hle hmute

theorem WorkPath.trace_le [ICongestionControl σ] {x : Input σ} {s s' : Stage σ}
    (h : WorkPath x s s') : s.mgr.trace <+: s'.mgr.trace := by
  induction h with
  | refl => exact List.prefix_refl _
  | tail _ hwork ih => exact ih.trans (hwork.logged (o := .init 0)).isPrefix

end TCPConnectionManager

/-! ## The delayed acknowledgement -/

namespace Conn
variable [ICongestionControl σ] (env : Env) (c : Conn σ)

theorem sendBufferedData_pending :
    (c.sendBufferedData env).tcb.delayedAckPending = c.tcb.delayedAckPending := by
  have hdrain : ((c.drain env c.tcb.sendBuffer.size).updateRcvWnd).tcb.delayedAckPending =
      c.tcb.delayedAckPending :=
    drain_induction (motive := fun c' => c'.tcb.delayedAckPending = c.tcb.delayedAckPending) env
      (fun c' h => (sendSegment_delayedAckPending env _ _ c').trans h) _ rfl
  rw [sendBufferedData, completeClose]
  split
  · dsimp only
    split
    · rw [setState_tcb, sendSegment_delayedAckPending]
      exact hdrain
    · exact hdrain
  · exact hdrain

theorem sample_pending : (c.sample env).tcb.delayedAckPending = c.tcb.delayedAckPending := by
  rw [sample]
  dsimp only
  split <;> rfl

theorem processAck_pending (ackNum : BitVec 32) (window : UInt16) :
    (c.processAck env ackNum window).tcb.delayedAckPending = c.tcb.delayedAckPending := by
  rw [processAck]
  dsimp only
  obtain ⟨cc, sampling, dup, htcb⟩ :=
    checkDupAck_tcb { c with tcb := { c.tcb with sndWnd := window.toNat } } ackNum
  split
  · split
    · rw [sendBufferedData_pending, htcb]
    · rw [htcb]
  · rw [sample_pending, sendBufferedData_pending, advance, htcb]

/-- Where the FIN is out and the buffer empty, nothing that `process_ack` sends is new. -/
theorem processAck_sndNxt (ackNum : BitVec 32) (window : UInt16)
    (hbuf : c.tcb.sendBuffer.empty = true) (hcan : c.tcb.state.canSend = false) :
    (c.processAck env ackNum window).tcb.sndNxt = c.tcb.sndNxt := by
  have hsend (d : Conn σ) (hd : d.tcb.sendBuffer = c.tcb.sendBuffer)
      (hs : d.tcb.state = c.tcb.state) :
      (d.sendBufferedData env).tcb.sndNxt = d.tcb.sndNxt := by
    rw [sendBufferedData, drain_of_done env (Or.inl (hd ▸ hbuf)), completeClose]
    split
    · dsimp only
      rw [if_neg (by rw [updateRcvWnd_tcb, hs, hcan]; exact Bool.false_ne_true)]
      rfl
    · rfl
  have hsample (d : Conn σ) : (d.sample env).tcb.sndNxt = d.tcb.sndNxt := by
    rw [sample]
    dsimp only
    split <;> rfl
  rw [processAck]
  dsimp only
  obtain ⟨cc, sampling, dup, htcb⟩ :=
    checkDupAck_tcb { c with tcb := { c.tcb with sndWnd := window.toNat } } ackNum
  split
  · split
    · rw [hsend _ (by rw [htcb]) (by rw [htcb]), htcb]
    · rw [htcb]
  · rw [hsample, hsend _ (by rw [advance, htcb]) (by rw [advance, htcb]), advance, htcb]

omit [ICongestionControl σ] in
/-- Data in sequence is acknowledged, at once or with a delay. -/
theorem acknowledgeData_answers : (c.acknowledgeData env).tcb.delayedAckPending = true ∨
    Acknowledges c.ptr c.tcb.rcvNxt c.trace (c.acknowledgeData env).trace := by
  have hack := (speaks_sendSegment env TCPFlags.ack (by decide) [] c).speaks
    (Nat.zero_le _)
  rw [acknowledgeData]
  split
  · split
    · exact Or.inl rfl
    · exact Or.inr hack
  · exact Or.inr hack

end Conn

namespace TCPConnectionManager
variable [ICongestionControl σ] {m m' : TCPConnectionManager σ} {p : Ptr} {t t' : TCB σ}
  {seg : TCPSegment} {s : TCPState} {x : Input σ}

/-! ## The acknowledgement in the segment -/

/-- What is left of the TCB `t` behind the ACK part of a handler. -/
structure AckedBy (env : Env) (seg : TCPSegment) (p : Ptr) (t : TCB σ)
    (m m' : TCPConnectionManager σ) (t' : TCB σ) : Prop where
  heap : m'.heap p = some t'
  speaks : Conn.SpeaksIff (t.SpeaksOn env seg) ⟨p, t, m.trace⟩ ⟨p, t', m'.trace⟩
  before : m.trace <+: m'.trace
  list : m'.timeWaitList = m.timeWaitList
  identity : t'.toTCBIdentity = t.toTCBIdentity
  receive : t'.toTCBReceive = t.toTCBReceive
  pending : t'.delayedAckPending = t.delayedAckPending

theorem handleAck_ackedBy (env : Env) (hp : m.heap p = some t) (hact : t.state.isActive = true)
    (hentries : t.EntriesOk) (seg : TCPSegment) :
    ∃ t', AckedBy env seg p t m (m.handleAck env p seg) t' := by
  have hlisten : t.state ≠ .listen := TCPState.ne_listen_of_isActive hact
  rw [handleAck]
  cases hack : seg.isAck with
  | false =>
    rw [if_neg Bool.false_ne_true]
    refine ⟨t, hp, .silent (fun h => ?_) rfl, List.prefix_refl _, rfl, rfl, rfl, rfl⟩
    rw [TCB.SpeaksOn, hack] at h
    exact Bool.false_ne_true h.1
  | true =>
    rw [if_pos rfl, on_of_heap hp]
    have hspeaks := Conn.speaks_processAck env seg.ackNum seg.window ⟨p, t, m.trace⟩
      (fun e he => (hentries e he).length_le) hlisten
    have hpath := (Conn.ConnStep.processAck (x := some seg) env ⟨p, t, m.trace⟩ seg rfl hack hact).path
    have hpend := Conn.processAck_pending env ⟨p, t, m.trace⟩ seg.ackNum seg.window
    generalize Conn.processAck env seg.ackNum seg.window ⟨p, t, m.trace⟩ = c at hspeaks hpath hpend
    obtain ⟨q, t', tr⟩ := c
    have hptr : q = p := hpath.ptr
    subst hptr
    refine ⟨t', store_heap_self m ⟨q, t', tr⟩, ?_, hpath.grows.isPrefix, rfl, hpath.identity,
      hpath.receive, hpend⟩
    obtain ⟨hsaid, hmute⟩ := hspeaks
    exact ⟨fun h => hsaid h.2, fun h => hmute fun hP => h ⟨hack, hP⟩⟩

theorem AckedBy.answered_iff {env : Env} (h : AckedBy env seg p t m m' t') :
    m'.Answered p m.trace ↔ t.delayedAckPending = true ∨ t.SpeaksOn env seg := by
  rw [answered_of_heap h.heap, h.pending, congrArg TCBReceive.rcvNxt h.receive]
  exact or_congr_right h.speaks.iff

/-! ## The data -/

omit [ICongestionControl σ] in
/-- An acknowledgement of the connection itself. -/
theorem answered_ack (hp : m.heap p = some t) (env : Env) {tr : List Event}
    (hle : tr <+: m.trace) : (m.on p (·.sendSegment env TCPFlags.ack [])).Answered p tr := by
  have hack := (Conn.speaks_sendSegment env TCPFlags.ack (by decide) []
    ⟨p, t, m.trace⟩).speaks (Nat.zero_le _)
  rw [on_of_heap hp, Conn.sendSegment_ack] at *
  rw [answered_of_heap (store_heap_self m ⟨p, _, _⟩)]
  exact Or.inr (hack.behind hle)

/-- Data in sequence is answered. -/
theorem answered_acknowledgeData (hready : Ready m p) (env : Env) {tr : List Event}
    (hle : tr <+: m.trace) : (m.on p (·.acknowledgeData env)).Answered p tr := by
  obtain ⟨t, hp, hact⟩ := hready.heap
  have hanswer := Conn.acknowledgeData_answers env ⟨p, t, m.trace⟩
  have hpath := (Conn.ConnStep.acknowledgeData (x := none) env ⟨p, t, m.trace⟩ hact).path
  rw [on_of_heap hp]
  generalize Conn.acknowledgeData env ⟨p, t, m.trace⟩ = c at hanswer hpath
  obtain ⟨q, u, tr'⟩ := c
  have hptr : q = p := hpath.ptr
  subst hptr
  have hrcv : u.rcvNxt = t.rcvNxt := congrArg TCBReceive.rcvNxt hpath.receive
  rw [answered_of_heap (store_heap_self m ⟨q, u, tr'⟩), hrcv]
  exact hanswer.imp_right fun hack => hack.behind hle

theorem answered_inOrder (h : Ready m p) {data : List UInt8} {seq : BitVec 32}
    (hp : m.heap p = some t)
    (hmove : Work x ⟨m, none⟩ ⟨m.log (.onReceive p t.onReceive data), some (p, seq)⟩)
    {tr : List Event} (hle : tr <+: m.trace) :
    let m' := (m.deliverData x.ctx p data).modify p (setRcvNxt seq)
    ((m'.deliverOooData x.ctx p (m'.oooLength p)).on p
      (·.acknowledgeData x.ctx.toEnv)).Answered p tr := by
  intro m'
  have hdeliver := path_deliver h data seq hp hmove
  have hooo := path_deliverOooData (x := x) (h.work hdeliver) (m'.oooLength p)
  exact answered_acknowledgeData ((h.work hdeliver).work hooo) x.ctx.toEnv
    (hle.trans (WorkPath.trace_le (hdeliver.trans hooo)))

/-- **Data that is not old is answered**, and old data changes nothing. -/
theorem handlePayload_answers (hready : Ready m p) (hp : m.heap p = some t)
    (hx : x.seg = some seg) {tr : List Event} (hle : tr <+: m.trace) :
    (t.BringsData seg → (m.handlePayload x.ctx p seg).Answered p tr) ∧
      (¬ t.BringsData seg → m.handlePayload x.ctx p seg = m) := by
  obtain ⟨u, hu, hact⟩ := hready.heap
  rw [hp] at hu
  cases hu
  rw [handlePayload, TCB.BringsData, handleData, hp, TCPSegment.finSeq]
  dsimp only
  by_cases hdata : seg.dataLength = 0
  · rw [if_neg (by omega)]
    exact ⟨fun h => absurd hdata h.1, fun _ => rfl⟩
  rw [if_pos (Nat.pos_of_ne_zero hdata), if_neg hdata]
  cases hend : seqLe (seg.seqNum + BitVec.ofNat 32 seg.dataLength) t.rcvNxt with
  | true =>
    rw [if_pos rfl]
    exact ⟨fun h => absurd h.2.1 (by decide), fun _ => rfl⟩
  | false =>
    rw [if_neg Bool.false_ne_true]
    cases hold : seqLt seg.seqNum t.rcvNxt with
    | true =>
      simp only [if_true, Bool.true_and, decide_eq_true_eq, true_and]
      by_cases hskip : seg.dataLength ≤ (t.rcvNxt - seg.seqNum).toNat
      · rw [if_pos hskip]
        exact ⟨fun h => absurd hskip h.2, fun _ => rfl⟩
      · rw [if_neg hskip]
        refine ⟨fun _ => answered_inOrder hready hp ?_ hle, fun h => absurd ⟨hdata, hskip⟩ h⟩
        exact .deliver _ hx hp hact (Nat.pos_of_ne_zero hdata) (Nat.not_le.mp hskip)
          (Or.inl ⟨hold, rfl⟩)
    | false =>
      simp only [Bool.false_eq_true, if_false, Bool.false_and, List.drop_zero, false_and,
        not_false_eq_true, and_true]
      refine ⟨fun _ => ?_, fun h => absurd hdata h⟩
      split
      · rename_i hstart
        have hmove : Work x ⟨m, none⟩ ⟨m.log (.onReceive p t.onReceive (seg.data.drop 0)), _⟩ :=
          .deliver 0 hx hp hact (Nat.pos_of_ne_zero hdata) (Nat.pos_of_ne_zero hdata)
            (Or.inr ⟨hstart, rfl⟩)
        exact answered_inOrder hready hp hmove hle
      · rw [modify_of_heap hp]
        exact answered_ack (store_heap_self m ⟨p, _, _⟩) x.ctx.toEnv hle

/-- **Behind its ACK and its data**, a segment is answered or changes nothing. -/
structure TakenIn (env : Env) (seg : TCPSegment) (p : Ptr) (t : TCB σ)
    (m m' : TCPConnectionManager σ) : Prop where
  before : m.trace <+: m'.trace
  answered : m'.finInOrder p seg = false → (m'.Answered p m.trace ↔
    t.BringsData seg ∨ t.BringsFin seg ∨ t.delayedAckPending = true ∨ t.SpeaksOn env seg)
  fin : m'.finInOrder p seg = true → t.BringsData seg ∨ t.BringsFin seg

theorem takenIn (hready : Ready m p) (hp : m.heap p = some t) (hentries : t.EntriesOk)
    (hx : x.seg = some seg) :
    TakenIn x.ctx.toEnv seg p t m ((m.handleAck x.ctx.toEnv p seg).handlePayload x.ctx p seg) := by
  obtain ⟨u, hu, hact⟩ := hready.heap
  rw [hp] at hu
  cases hu
  obtain ⟨t₁, hacked⟩ := handleAck_ackedBy x.ctx.toEnv hp hact hentries seg
  have hready₁ := hready.work (path_handleAck (x := x) hready x.ctx.toEnv hx)
  have hle := (path_handlePayload (x := x) hready₁ hx).trace_le
  obtain ⟨hnew, hold⟩ := handlePayload_answers hready₁ hacked.heap hx hacked.before
  have hrcv : t₁.rcvNxt = t.rcvNxt := congrArg TCBReceive.rcvNxt hacked.receive
  rw [TCB.BringsData, hrcv, ← TCB.BringsData] at hnew hold
  refine ⟨hacked.before.trans hle, ?_, ?_⟩
  · intro hfin
    by_cases hdata : t.BringsData seg
    · exact iff_of_true (hnew hdata) (Or.inl hdata)
    · rw [hold hdata] at hfin ⊢
      have hnone : ¬ t.BringsFin seg := by
        rw [← Bool.not_eq_true, finInOrder_iff hacked.heap, hrcv] at hfin
        exact hfin
      rw [hacked.answered_iff, or_iff_right hdata, or_iff_right hnone]
  · intro hfin
    by_cases hdata : t.BringsData seg
    · exact Or.inl hdata
    · rw [hold hdata, finInOrder_iff hacked.heap, hrcv] at hfin
      exact Or.inr hfin

/-! ## The FIN -/

omit [ICongestionControl σ] in
theorem receiveFin_acknowledges (hp : m.heap p = some t) (env : Env) (handler next : TCPState)
    {tr : List Event} (hle : tr <+: m.trace) :
    Acknowledges p (t.rcvNxt + 1) tr (m.receiveFin env p handler next).trace ∧
      ∃ u, (m.receiveFin env p handler next).heap p = some u ∧ u.rcvNxt = t.rcvNxt + 1 := by
  rw [receiveFin_of_heap hp]
  refine ⟨?_, _, store_heap_self m ⟨p, _, _⟩, rfl⟩
  refine ⟨.segment, ({ t with rcvNxt := t.rcvNxt + 1 } : TCB σ).segment TCPFlags.ack t.sndNxt [],
    ?_, (by decide : TCPFlags.has TCPFlags.ack TCPFlags.ack = true), rfl⟩
  show _ ∈ (m.trace ++ _).drop _
  rw [List.drop_append_of_le_length hle.length_le]
  exact List.mem_append_right _ (List.mem_cons_self ..)

/-- `on_close` leaves `rcv_nxt` alone. -/
theorem notifyClose_rcvNxt (hready : Ready m p) (hp : m.heap p = some t) (ctx : Context σ) :
    ∃ u, (m.notifyClose ctx p).heap p = some u ∧ u.rcvNxt = t.rcvNxt := by
  have hrecv : (m.log (.onClose p t.onClose)).Receiving p t.toTCBReceive
      t.options.recvBufferSize (m.log (.onClose p t.onClose) |>.received p) :=
    ⟨⟨hready.wellFormed.log _, hready.inState⟩, ⟨t, hp, rfl, rfl⟩, rfl⟩
  have hinvoke : (m.notifyClose ctx p).Receiving p t.toTCBReceive t.options.recvBufferSize
      (m.log (.onClose p t.onClose) |>.received p) := by
    rw [notifyClose, hp]
    dsimp only
    rw [invoke]
    split
    · exact hrecv.calls _ _
    · exact hrecv
  obtain ⟨u, hu, hr, -⟩ := hinvoke.tcb
  exact ⟨u, hu, congrArg TCBReceive.rcvNxt hr⟩

/-! ## The timer of TIME_WAIT -/

omit [ICongestionControl σ] in
theorem deleteTcb_trace (m : TCPConnectionManager σ) (q : Ptr) :
    (m.deleteTcb q).trace = m.trace := by
  rw [deleteTcb]
  split
  · exact eraseListener_trace _ _
  · split
    · rfl
    · split
      · dsimp only
        rw [eraseConnection_trace]
        split <;> rfl
      · rfl

omit [ICongestionControl σ] in
/-- Ending a connection sends nothing. -/
theorem endTcb_mute (m : TCPConnectionManager σ) (q : Ptr) (cause : EndCause) :
    Grows (Event.Mute p) m.trace (m.endTcb q cause).trace := by
  cases hq : m.heap q with
  | none =>
    rw [endTcb, on_of_freed hq]
    exact .refl _
  | some t =>
    rw [endTcb_of_heap hq]
    refine ⟨_, rfl, fun ev hev => ?_⟩
    rcases List.mem_pair.mp hev with rfl | rfl <;> exact fun _ _ => Event.noConfusion

omit [ICongestionControl σ] in
theorem evictTimeWait_mute (l : List (Nat × TCPTuple)) (m : TCPConnectionManager σ) :
    Grows (Event.Mute p) m.trace (m.evictTimeWait l).trace := by
  induction l generalizing m with
  | nil => exact .refl _
  | cons entry rest ih =>
    rw [evictTimeWait]
    split
    · refine Grows.trans ?_ (ih _)
      rw [expireTimeWait]
      split
      · exact .refl _
      · split
        · rw [deleteTcb_trace]
          exact endTcb_mute m _ _
        · exact .refl _
    · exact .refl _

/-- Starting the timer sends nothing; it leaves the TCB, or destroys it. -/
theorem startTimeWaitTimer_keeps (hwf : m.WellFormed) (hp : m.heap p = some t) (env : Env) :
    Grows (Event.Mute p) m.trace (m.startTimeWaitTimer env p).trace ∧
      ((m.startTimeWaitTimer env p).heap p = none ∨
        (m.startTimeWaitTimer env p).heap p = some (releaseBuffers t)) := by
  have hmute := evictTimeWait_mute (p := p) m.timeWaitList m
  obtain ⟨-, -, hheap⟩ := evictTimeWait_effect hwf m.timeWaitList
  rw [startTimeWaitTimer]
  generalize m.evictTimeWait m.timeWaitList = m₁ at hmute hheap
  dsimp only
  split
  · rename_i hgone
    exact ⟨hmute, Or.inl hgone⟩
  · rename_i u hu
    have hut := hheap p u hu
    rw [hp] at hut
    cases hut
    rw [modify_of_heap (by exact hu)]
    exact ⟨hmute, Or.inr (store_heap_self _ ⟨p, _, _⟩)⟩

/-- A FIN that is taken in has been answered, whatever becomes of the timer. -/
theorem answered_startTimeWaitTimer (hwf : m.WellFormed) (hp : m.heap p = some t) (env : Env)
    {tr : List Event} (hack : Acknowledges p t.rcvNxt tr m.trace) :
    (m.startTimeWaitTimer env p).Answered p tr := by
  obtain ⟨hmute, hgone | hleft⟩ := startTimeWaitTimer_keeps hwf hp env
  · refine .of_acknowledges hack hmute.isPrefix fun u hu => ?_
    rw [hgone] at hu
    cases hu
  · refine .of_acknowledges hack hmute.isPrefix fun u hu => ?_
    rw [hleft] at hu
    cases hu
    rfl

theorem answered_restartTimeWaitTimer (hwf : m.WellFormed) (hp : m.heap p = some t) (env : Env)
    {tr : List Event} (hack : Acknowledges p t.rcvNxt tr m.trace) :
    (m.restartTimeWaitTimer env p).Answered p tr := by
  rw [restartTimeWaitTimer, hp]
  dsimp only
  split
  · exact (answered_of_heap hp).mpr (Or.inr hack)
  · exact answered_startTimeWaitTimer hwf hp env hack

/-- Entering TIME_WAIT: the TCB is gone if its own entry makes room, and else as it was. -/
theorem answered_enterTimeWait (hp : m.heap p = some t)
    (hwf : (m.on p (·.setState .timeWait)).WellFormed) (env : Env) {tr : List Event}
    (hle : tr <+: m.trace) :
    let m' := (m.on p (·.setState .timeWait)).startTimeWaitTimer env p
    (m.MakesRoom t.tTuple → (m'.Answered p tr ↔ ∃ n, Acknowledges p n tr m.trace)) ∧
      (¬ m.MakesRoom t.tTuple → (m'.Answered p tr ↔ m.Answered p tr)) := by
  intro m'
  have hself : (m.on p (·.setState .timeWait)).heap p = some { t with state := .timeWait } := by
    rw [on_of_heap hp]
    exact store_heap_self m ⟨p, _, _⟩
  have hmoved : Grows (Event.Mute p) m.trace (m.on p (·.setState .timeWait)).trace := by
    rw [on_of_heap hp]
    exact .single fun _ _ => Event.noConfusion
  have hlist : (m.on p (·.setState .timeWait)).timeWaitList = m.timeWaitList := by
    rw [on_of_heap hp]
    rfl
  have hwaits := (startTimeWaitTimer_effect hwf env ⟨_, hself, rfl, rfl⟩).waits p t.tTuple
  obtain ⟨hmute, hend⟩ := startTimeWaitTimer_keeps hwf hself env
  rw [hlist] at hwaits
  refine ⟨fun hroom => ?_, fun hroom => ?_⟩
  · refine answered_of_gone (hend.resolve_right fun hleft => ?_) hle (hmoved.trans hmute)
    exact (hwaits.mp ⟨_, hleft, rfl, rfl⟩).2 hroom
  · obtain ⟨u, hu, -⟩ := hwaits.mpr ⟨⟨_, hself, rfl, rfl⟩, hroom⟩
    refine answered_congr hp (hend.resolve_left fun hgone => ?_) hle (hmoved.trans hmute) rfl rfl
    rw [hgone] at hu
    cases hu

omit [ICongestionControl σ] in
/-- The connection of LAST_ACK is destroyed. -/
theorem answered_lastAck (hwf : m.WellFormed) (hp : m.heap p = some t)
    (hk : (t.tTuple, p) ∈ m.connections) {tr : List Event} (hle : tr <+: m.trace) :
    ((m.endTcb p .lastAck).deleteTcb p).Answered p tr ↔ ∃ n, Acknowledges p n tr m.trace := by
  have hmute := endTcb_mute (p := p) m p .lastAck
  rw [← deleteTcb_trace (m.endTcb p .lastAck) p] at hmute
  refine answered_of_gone ?_ hle hmute
  have hfind : (m.endTcb p .lastAck).findTcb t.tTuple = some p := by
    rw [endTcb_of_heap hp]
    exact hwf.findTcb_iff.mpr hk
  rw [hwf.deleteTcb_endTcb hp hk, eraseConnection, hfind]
  exact Function.update_self ..

/-! ## The states -/

section States
variable (hwf : m.WellFormed) (hp : m.heap p = some t) (hentries : t.EntriesOk)
  (hx : x.seg = some seg)
include hwf hp hentries hx

/-- `handle_established`. -/
theorem handleEstablished_answered (hin : m.InState p .established) :
    (m.handleEstablished x.ctx p seg).Answered p m.trace ↔
      t.BringsData seg ∨ t.BringsFin seg ∨ t.delayedAckPending = true ∨
        t.SpeaksOn x.ctx.toEnv seg := by
  have hready := hin.ready hwf rfl
  have htaken := takenIn hready hp hentries hx
  have hwork := path_intake hready hx
  obtain ⟨s', hreach, hin'⟩ := hwork.kept hwf hin (by decide)
  have hwf' := hwork.wellFormed hwf
  rw [handleEstablished]
  generalize (m.handleAck x.ctx.toEnv p seg).handlePayload x.ctx p seg = m' at htaken hin' hwf'
  split
  · rename_i hfin
    refine iff_of_true ?_ ((htaken.fin hfin).elim Or.inl fun h => Or.inr (Or.inl h))
    have hedge : FinEdge .established s' .closeWait := by
      rcases hreach with rfl | ⟨-, rfl⟩
      · exact .established
      · exact .overtaken
    obtain ⟨hpath, hin''⟩ := path_receiveFin (o := m) hin' x.ctx.toEnv hx hfin hedge
    have hwf'' := hpath.wellFormed hwf'
    obtain ⟨v, hv, -⟩ := hin'
    obtain ⟨hack, u, hu, hrcv⟩ :=
      receiveFin_acknowledges hv x.ctx.toEnv .established .closeWait htaken.before
    obtain ⟨w, hw, hrcv'⟩ := notifyClose_rcvNxt (hin''.ready hwf'' rfl) hu x.ctx
    refine .of_acknowledges hack (path_notifyClose (x := x) hwf'' p).trace_le fun u' hu' => ?_
    rw [hw] at hu'
    cases hu'
    exact hrcv'.trans hrcv
  · rename_i hfin
    exact htaken.answered (Bool.not_eq_true _ ▸ hfin)

omit hwf hp hentries in
/-- The peer's FIN that ends with the timer of TIME_WAIT. -/
theorem answered_lastFin {s : TCPState} {m' : TCPConnectionManager σ} (hwf' : m'.WellFormed)
    (hin : m'.InState p s) (hle : m.trace <+: m'.trace) (hfin : m'.finInOrder p seg = true)
    (hedge : FinEdge s s .timeWait) :
    ((m'.receiveFin x.ctx.toEnv p s .timeWait).startTimeWaitTimer x.ctx.toEnv p).Answered p
      m.trace := by
  obtain ⟨hpath, -⟩ := path_receiveFin (o := m) (x := x) hin x.ctx.toEnv hx hfin hedge
  obtain ⟨v, hv, -⟩ := hin
  obtain ⟨hack, u, hu, hrcv⟩ := receiveFin_acknowledges hv x.ctx.toEnv s .timeWait hle
  exact answered_startTimeWaitTimer (hpath.wellFormed hwf') hu x.ctx.toEnv (hrcv ▸ hack)

/-- `handle_fin_wait_1`. -/
theorem handleFinWait1_answered (hin : m.InState p .finWait1) :
    (m.handleFinWait1 x.ctx p seg).Answered p m.trace ↔
      t.BringsData seg ∨ t.BringsFin seg ∨ t.delayedAckPending = true ∨
        t.SpeaksOn x.ctx.toEnv seg := by
  have hready := hin.ready hwf rfl
  have htaken := takenIn hready hp hentries hx
  obtain ⟨hready', hin'⟩ := path_intake_inState hready hin rfl rfl hx
  have hwf' := hready'.wellFormed
  obtain ⟨v, hv, -⟩ := hready'.heap
  rw [handleFinWait1]
  generalize (m.handleAck x.ctx.toEnv p seg).handlePayload x.ctx p seg = m' at *
  split
  · rename_i hfin
    refine iff_of_true ?_ ((htaken.fin hfin).elim Or.inl fun h => Or.inr (Or.inl h))
    split
    · exact answered_lastFin hx hwf' hin' htaken.before hfin .finWait1
    · obtain ⟨hack, u, hu, hrcv⟩ :=
        receiveFin_acknowledges hv x.ctx.toEnv .finWait1 .closing htaken.before
      refine .of_acknowledges hack (List.prefix_refl _) fun u' hu' => ?_
      rw [hu] at hu'
      cases hu'
      exact hrcv
  · rename_i hfin
    have hsame := htaken.answered (Bool.not_eq_true _ ▸ hfin)
    split
    · -- the FIN of this side is acknowledged: only the state changes
      rw [← hsame, on_of_heap hv]
      exact answered_congr hv (store_heap_self m' ((Conn.mk p v m'.trace).setState .finWait2))
        htaken.before (.single fun _ _ => Event.noConfusion) rfl rfl
    · exact hsame

/-- `handle_fin_wait_2`. -/
theorem handleFinWait2_answered (hin : m.InState p .finWait2) :
    (m.handleFinWait2 x.ctx p seg).Answered p m.trace ↔
      t.BringsData seg ∨ t.BringsFin seg ∨ t.delayedAckPending = true ∨
        t.SpeaksOn x.ctx.toEnv seg := by
  have hready := hin.ready hwf rfl
  have htaken := takenIn hready hp hentries hx
  obtain ⟨hready', hin'⟩ := path_intake_inState hready hin rfl rfl hx
  rw [handleFinWait2]
  generalize (m.handleAck x.ctx.toEnv p seg).handlePayload x.ctx p seg = m' at *
  split
  · rename_i hfin
    refine iff_of_true ?_ ((htaken.fin hfin).elim Or.inl fun h => Or.inr (Or.inl h))
    exact answered_lastFin hx hready'.wellFormed hin' htaken.before hfin .finWait2
  · rename_i hfin
    exact htaken.answered (Bool.not_eq_true _ ▸ hfin)

omit hwf hentries hx in
/-- What the handlers of the last two states look at behind the ACK. -/
theorem acksAll_iff (seg : TCPSegment) (env : Env) (hact : t.state.isActive = true)
    (hshape : t.Shape) (hcan : t.state.canSend = false) :
    (seg.isAck && (m.handleAck env p seg).allAcked p) = true ↔ t.AcksAll seg := by
  rw [TCB.AcksAll, Bool.and_eq_true]
  refine and_congr_right fun hack => ?_
  rw [handleAck, if_pos hack, on_of_heap hp, allAcked]
  have huna := Conn.processAck_sndUna env ⟨p, t, m.trace⟩ seg.ackNum seg.window
    (TCPState.ne_listen_of_isActive hact)
  have hnxt := Conn.processAck_sndNxt env ⟨p, t, m.trace⟩ seg.ackNum seg.window
    (hshape.finSent hact hcan) hcan
  have hptr : (Conn.processAck env seg.ackNum seg.window ⟨p, t, m.trace⟩).ptr = p :=
    (Conn.ConnStep.processAck (x := some seg) env ⟨p, t, m.trace⟩ seg rfl hack hact).path.ptr
  have hheap : (m.store (Conn.processAck env seg.ackNum seg.window ⟨p, t, m.trace⟩)).heap p =
      some (Conn.processAck env seg.ackNum seg.window ⟨p, t, m.trace⟩).tcb := by
    have hself := store_heap_self m (Conn.processAck env seg.ackNum seg.window ⟨p, t, m.trace⟩)
    rwa [hptr] at hself
  rw [test_of_heap hheap, huna, hnxt, beq_iff_eq]

omit hwf hx in
/-- `handle_close_wait`. -/
theorem handleCloseWait_answered (hin : m.InState p .closeWait) :
    (m.handleCloseWait x.ctx p seg).Answered p m.trace ↔
      t.delayedAckPending = true ∨ t.SpeaksOn x.ctx.toEnv seg := by
  obtain ⟨u, hu, -, hs⟩ := hin
  rw [hp] at hu
  cases hu
  obtain ⟨t', hacked⟩ := handleAck_ackedBy x.ctx.toEnv hp (by rw [hs]; rfl) hentries seg
  exact hacked.answered_iff

/-- `handle_closing`. -/
theorem handleClosing_answered (hshape : t.Shape) (hin : m.InState p .closing) :
    (m.handleClosing x.ctx p seg).Answered p m.trace ↔
      (t.delayedAckPending = true ∧ ¬ (t.AcksAll seg ∧ m.MakesRoom t.tTuple)) ∨
        t.SpeaksOn x.ctx.toEnv seg := by
  obtain ⟨hready', hin'⟩ := path_handleAck_inState (x := x) (hin.ready hwf rfl) hin rfl rfl
    x.ctx.toEnv hx
  obtain ⟨u, hu, -, hs⟩ := hin
  rw [hp] at hu
  cases hu
  have hact : t.state.isActive = true := by rw [hs]; rfl
  have hcan : t.state.canSend = false := by rw [hs]; rfl
  have hacks := acksAll_iff hp seg x.ctx.toEnv hact hshape hcan
  obtain ⟨t', hacked⟩ := handleAck_ackedBy x.ctx.toEnv hp hact hentries seg
  rw [handleClosing]
  split
  · rename_i hall
    rw [hacks] at hall
    rw [and_iff_right hall]
    obtain ⟨-, hwf', -⟩ := path_finAcked (o := m) (x := x) hready'.wellFormed hin' .closing
    have hk : t'.tTuple = t.tTuple := congrArg TCBIdentity.tTuple hacked.identity
    have hsame : (m.handleAck x.ctx.toEnv p seg).MakesRoom t'.tTuple ↔ m.MakesRoom t.tTuple := by
      rw [MakesRoom, MakesRoom, hacked.list, hk]
    by_cases hroom : m.MakesRoom t.tTuple
    · rw [(answered_enterTimeWait hacked.heap hwf' x.ctx.toEnv hacked.before).1 (hsame.mpr hroom),
        or_iff_right fun h => h.2 hroom]
      exact hacked.speaks.iff_exists
    · rw [(answered_enterTimeWait hacked.heap hwf' x.ctx.toEnv hacked.before).2
        fun h => hroom (hsame.mp h), hacked.answered_iff, and_iff_left hroom]
  · rename_i hall
    rw [hacks] at hall
    rw [hacked.answered_iff, and_iff_left fun h => hall h.1]

/-- `handle_last_ack`. -/
theorem handleLastAck_answered (hshape : t.Shape) (hin : m.InState p .lastAck) :
    (m.handleLastAck x.ctx p seg).Answered p m.trace ↔
      (t.delayedAckPending = true ∧ ¬ t.AcksAll seg) ∨ t.SpeaksOn x.ctx.toEnv seg := by
  obtain ⟨hready', hin'⟩ := path_handleAck_inState (x := x) (hin.ready hwf rfl) hin rfl rfl
    x.ctx.toEnv hx
  obtain ⟨u, hu, -, hs⟩ := hin
  rw [hp] at hu
  cases hu
  have hact : t.state.isActive = true := by rw [hs]; rfl
  have hcan : t.state.canSend = false := by rw [hs]; rfl
  have hacks := acksAll_iff hp seg x.ctx.toEnv hact hshape hcan
  obtain ⟨t', hacked⟩ := handleAck_ackedBy x.ctx.toEnv hp hact hentries seg
  rw [handleLastAck]
  split
  · rename_i hall
    rw [hacks] at hall
    obtain ⟨u, hu, hk, -⟩ := hin'
    rw [answered_lastAck hready'.wellFormed hu hk hacked.before, or_iff_right fun h => h.2 hall]
    exact hacked.speaks.iff_exists
  · rename_i hall
    rw [hacks] at hall
    rw [hacked.answered_iff, and_iff_left hall]

omit hentries hx in
/-- `handle_time_wait`. -/
theorem handleTimeWait_answered (hin : m.InState p .timeWait) :
    (m.handleTimeWait x.ctx p seg).Answered p m.trace ↔
      t.delayedAckPending = true ∨ seg.isFin = true := by
  rw [handleTimeWait]
  split
  · rename_i hfin
    refine iff_of_true ?_ (Or.inr hfin)
    have hsent := path_on_active (x := x) (hin.ready hwf rfl)
      (f := fun c => c.sendSegment x.ctx.toEnv TCPFlags.ack []) fun u hact => .ack _ _ (Or.inl hact)
    have hwf' := hsent.wellFormed hwf
    have hack := (Conn.speaks_sendSegment x.ctx.toEnv TCPFlags.ack (by decide) []
      ⟨p, t, m.trace⟩).speaks (Nat.zero_le _)
    rw [Conn.sendSegment_ack] at hack
    have hon : m.on p (·.sendSegment x.ctx.toEnv TCPFlags.ack []) = _ := on_of_heap hp _
    rw [Conn.sendSegment_ack] at hon
    rw [hon] at hwf' ⊢
    exact answered_restartTimeWaitTimer hwf' (store_heap_self m ⟨p, _, _⟩) x.ctx.toEnv hack
  · rename_i hfin
    rw [answered_of_heap hp]
    exact or_congr_right (iff_of_false (Acknowledges.not_mute (.refl _)) hfin)

end States

/-- **When a segment is answered.**  A segment without RST comes for a connection in one of the
seven synchronized states. -/
theorem segment_answered_iff (h : m.Reachable) (ctx : Context σ) (hfind : m.findTcb seg.tuple = some p)
    (hp : m.heap p = some t) (hact : t.state.isActive = true) (hrst : seg.isRst = false) :
    (m.onSegmentReceived ctx seg).Answered p m.trace ↔ m.MakesAnswer ctx.toEnv seg t := by
  have hwf := h.wellFormed
  have hshape := hwf.shape p t hp
  have hentries : t.EntriesOk := h.tcbs TCB.keeps_entriesOk p t hp
  let x : Input σ := ⟨ctx, .segment seg⟩
  have hx : x.seg = some seg := rfl
  have hk := hwf.mem_connections hp (TCPState.ne_listen_of_isActive hact)
    (TCPState.ne_closed_of_isActive hact)
  have hin : m.InState p t.state := ⟨t, hp, hk, rfl⟩
  have hfound : (m.findTcb seg.tuple <|> m.findListeningTcb seg.dstPort) = some p := by
    rw [hfind]
    rfl
  simp only [onSegmentReceived, hfound, hrst, Bool.false_eq_true, if_false, hp, MakesAnswer]
  generalize hs : t.state = s at hin hact ⊢
  cases s with
  | established => exact handleEstablished_answered (x := x) hwf hp hentries hx hin
  | finWait1 => exact handleFinWait1_answered (x := x) hwf hp hentries hx hin
  | finWait2 => exact handleFinWait2_answered (x := x) hwf hp hentries hx hin
  | closeWait => exact handleCloseWait_answered (x := x) hp hentries hin
  | closing => exact handleClosing_answered (x := x) hwf hp hentries hx hshape hin
  | lastAck => exact handleLastAck_answered (x := x) hwf hp hentries hx hshape hin
  | timeWait => exact handleTimeWait_answered (x := x) hwf hp hin
  | closed | listen | synSent | synRcvd => cases hact

/-! ### A peer that sends its data again -/

/-- A connection that has received three bytes, and acknowledged them. -/
def acknowledgingHost : TCPConnectionManager (TCPCubic Unit) :=
  GuardedRun.run TCPConnectionManager.step (init 0x0a000001) [
    ⟨.silent 0 0, .call (.connect 0x0a000002 80 5000 none)⟩,
    ⟨.silent 1 0, .segment ⟨0x0a000002, 0x0a000001, 80, 5000, 7, 1,
      TCPFlags.syn ||| TCPFlags.ack, 65535, []⟩⟩,
    ⟨.silent 2 0, .segment ⟨0x0a000002, 0x0a000001, 80, 5000, 8, 1, TCPFlags.ack, 65535,
      [1, 2, 3]⟩⟩,
    ⟨.silent 1000000 0, .timer []⟩]

/-- The same bytes again. -/
def repeated : TCPSegment :=
  ⟨0x0a000002, 0x0a000001, 80, 5000, 8, 1, TCPFlags.ack, 65535, [1, 2, 3]⟩

theorem acknowledgingHost_tcb : (acknowledgingHost.heap 0).map
    (fun t => (t.state, t.rcvNxt, t.delayedAckPending, t.sndUna, t.sndWnd,
      t.retransmitQueue.isEmpty)) = some (.established, 11, false, 1, 65535, true) := by
  decide +kernel

/-- The peer that missed the acknowledgement gets no other. -/
theorem acknowledgingHost_answers :
    ¬ (acknowledgingHost.onSegmentReceived (.silent 1000001 0) repeated).Answered 0
      acknowledgingHost.trace := by
  obtain ⟨t, hp, ht⟩ := Option.map_eq_some_iff.mp acknowledgingHost_tcb
  simp only [Prod.mk.injEq] at ht
  obtain ⟨hs, hrcv, hpend, huna, hwnd, hq⟩ := ht
  have hreach : acknowledgingHost.Reachable := ⟨_, _, rfl⟩
  rw [segment_answered_iff hreach _ (by decide +kernel) hp (by rw [hs]; rfl) (by decide), MakesAnswer,
    hs]
  dsimp only
  have hdup : ¬ t.ThirdDup repeated.ackNum := fun h => h.1.1 (List.isEmpty_iff.mp hq)
  rintro (hdata | hfin | hpending | ⟨-, hack⟩)
  · rw [TCB.BringsData, hrcv] at hdata
    exact absurd hdata.2.1 (by decide)
  · exact absurd hfin.1 (by decide)
  · rw [hpend] at hpending
    cases hpending
  · rw [TCB.AnswersAck, huna, hwnd] at hack
    rcases hack with ⟨hthird, -⟩ | hack
    · exact hdup hthird
    · rw [if_neg (by decide)] at hack
      exact absurd hack.1.1 (by decide)

end TCPConnectionManager
end NeuStack
