import NeuStack.SendManager
import NeuStack.Listeners

/-! # The send side tiles the stream

Handler by handler, what the manager does keeps the send side of every connection.
Where a handler changes the state, what it established before is needed: that
everything is acknowledged, for TIME_WAIT, and that no acknowledgement above
`snd_nxt` came in.

`sendTiling` is the result, for every run: in every state the containers of a
connection tile its stream, and every segment it sent is right.
-/
namespace NeuStack
variable {σ : Type}

namespace TCPConnectionManager
namespace SendSide
variable {p q : Ptr} {known : Option (BitVec 32)} {d : Intake} {m : TCPConnectionManager σ}
  {t : TCB σ} {s : TCPState}

/-! ## The timers -/

theorem expireTimeWait (h : m.SendSide p known d) (cause : EndCause) (tuple : TCPTuple) :
    (m.expireTimeWait cause tuple).SendSide p known d := by
  unfold TCPConnectionManager.expireTimeWait
  split
  · exact h
  · split
    · exact (h.endTcb _ cause).deleteTcb _
    · exact h

theorem evictTimeWait (h : m.SendSide p known d) (l : List (Nat × TCPTuple)) :
    (m.evictTimeWait l).SendSide p known d := by
  induction l generalizing m with
  | nil => exact h.of_heap (fun t ht => ht) rfl rfl
  | cons entry rest ih =>
    unfold TCPConnectionManager.evictTimeWait
    split
    · exact ih (h.expireTimeWait .timeWaitEvicted entry.2)
    · exact h.of_heap (fun t ht => ht) rfl rfl

theorem startTimeWaitTimer (h : m.SendSide p known d) (env : Env)
    (hfin : q = p → d.finAcked = true) : (m.startTimeWaitTimer env q).SendSide p known d := by
  unfold TCPConnectionManager.startTimeWaitTimer
  have hevict := h.evictTimeWait m.timeWaitList
  generalize m.evictTimeWait m.timeWaitList = m₁ at hevict
  dsimp only
  split
  · exact hevict
  · rename_i t ht
    let m₂ : TCPConnectionManager σ :=
      { m₁ with timeWaitList := m₁.timeWaitList ++ [(env.now + timeWaitDuration, t.tTuple)] }
    have hlist : m₂.SendSide p known d := hevict.of_heap (fun t ht => ht) rfl rfl
    refine SendSide.on (m := m₂) hlist fun u hu => ⟨.of_eq rfl rfl rfl rfl, fun heq hc => ?_⟩
    exact hc.release (hfin heq)

theorem restartTimeWaitTimer (h : m.SendSide p known d) (env : Env)
    (hfin : q = p → d.finAcked = true) : (m.restartTimeWaitTimer env q).SendSide p known d := by
  unfold TCPConnectionManager.restartTimeWaitTimer
  split
  · exact h
  · split
    · exact h.of_heap (fun t ht => ht) rfl rfl
    · exact h.startTimeWaitTimer env hfin

/-! ## The handlers -/

/-- From here on everything is known to be acknowledged. -/
theorem settle (h : m.SendSide p known d) (hin : m.InState q s)
    (hset : q = p → ∀ t, m.heap q = some t → Conn.Tidy d ⟨q, t, m.trace⟩ → t.Settled) :
    ∃ d', m.SendSide p known d' ∧ (q = p → d'.finAcked = true) := by
  by_cases heq : q = p
  · subst heq
    obtain ⟨t, hq, -, -⟩ := hin
    exact ⟨{ d with finAcked := true }, h.imp hq fun hc => hc.finAcked (hset rfl t hq hc),
      fun _ => rfl⟩
  · exact ⟨d, h, fun h => absurd h heq⟩

/-- `snd_una == snd_nxt`, once the local FIN is out. -/
theorem settled_of_allAcked (hin : m.InState q s) (hs : s = .finWait1 ∨ s = .closing)
    (hall : m.allAcked q = true) (hq : m.heap q = some t)
    (hc : Conn.Tidy d ⟨q, t, m.trace⟩) : t.Settled := by
  obtain ⟨u, hu, -, rfl⟩ := hin
  rw [hq] at hu
  cases hu
  rw [allAcked, test_of_heap hq, beq_iff_eq] at hall
  have hshut : t.state.canSend = false ∧ t.state ≠ .closed := by
    rcases hs with hs | hs <;> rw [hs] <;> exact ⟨rfl, nofun⟩
  exact ⟨hall, hc.flushed hshut.1 hshut.2, hshut.1⟩

/-- In these states everything is acknowledged anyway. -/
theorem settled_of_resting (hin : m.InState q s) (hs : s.isResting = true)
    (hq : m.heap q = some t) (hc : Conn.Tidy d ⟨q, t, m.trace⟩) : t.Settled := by
  obtain ⟨u, hu, -, rfl⟩ := hin
  rw [hq] at hu
  cases hu
  exact hc.settled (Or.inr hs)

variable [ICongestionControl σ] {x : Input σ} {seg : TCPSegment}

/-- The part the handlers share. -/
theorem intake (h : m.SendSide p known d) (ctx : Context σ)
    (hack : q = p → seg.isAck = true → d.ack = some seg.ackNum) :
    ((m.handleAck ctx.toEnv q seg).handlePayload ctx q seg).SendSide p known d :=
  (h.handleAck ctx.toEnv hack).handlePayload ctx q seg

theorem handleEstablished (h : m.SendSide p known d) (hready : Ready m q) (hin : m.InState q s)
    (hs : TCPState.established.Reaches s) (hx : x.seg = some seg)
    (hack : q = p → seg.isAck = true → d.ack = some seg.ackNum) (hfin : d.finAcked = false) :
    (m.handleEstablished x.ctx q seg).SendSide p known d := by
  unfold TCPConnectionManager.handleEstablished
  have hwork := path_intake (x := x) hready hx
  obtain ⟨s', hreach, hin'⟩ := hwork.kept hready.wellFormed hin
    (TCPState.ne_synSent_of_isActive (hs.isActive rfl))
  have hside := h.intake x.ctx hack
  dsimp only at hin' ⊢
  generalize (m.handleAck x.ctx.toEnv q seg).handlePayload x.ctx q seg = m₁ at hin' hside ⊢
  split
  · refine (hside.receiveFin x.ctx.toEnv fun heq t ht => ⟨?_, ?_⟩).notifyClose x.ctx q
    · obtain ⟨u, hu, -, hstate⟩ := hin'
      rw [heq, ht] at hu
      cases hu
      rw [hstate]
      rcases hs.trans hreach with rfl | ⟨-, rfl⟩
      · exact .established
      · exact .overtaken
    · rw [hfin]
      exact ⟨nofun, nofun⟩
  · exact hside

theorem handleFinWait1 (h : m.SendSide p known d) (hwf : m.WellFormed)
    (hin : m.InState q .finWait1) (hx : x.seg = some seg)
    (hack : q = p → seg.isAck = true → d.ack = some seg.ackNum) (hfin : d.finAcked = false) :
    (m.handleFinWait1 x.ctx q seg).SendSide p known {} := by
  have hready : Ready m q := hin.ready hwf rfl
  obtain ⟨-, hin₁⟩ := path_handleAck_inState hready hin rfl rfl x.ctx.toEnv hx
  obtain ⟨-, hin₂⟩ := path_intake_inState hready hin rfl rfl hx
  have hacked := h.handleAck x.ctx.toEnv hack
  unfold TCPConnectionManager.handleFinWait1
  dsimp only
  generalize m.handleAck x.ctx.toEnv q seg = m₁ at hin₁ hin₂ hacked ⊢
  cases hour : seg.isAck && m₁.allAcked q with
  | true =>
    rw [Bool.and_eq_true] at hour
    obtain ⟨d', hside, hfin'⟩ := hacked.settle hin₁ fun _ t hq hc =>
      settled_of_allAcked hin₁ (Or.inl rfl) hour.2 hq hc
    have hside := hside.handlePayload x.ctx q seg
    generalize m₁.handlePayload x.ctx q seg = m₂ at hin₂ hside ⊢
    split
    · rw [if_pos rfl]
      refine ((hside.receiveFin x.ctx.toEnv fun heq t ht => ⟨?_, ?_⟩).startTimeWaitTimer
        x.ctx.toEnv hfin').finished
      · obtain ⟨u, hu, -, hstate⟩ := hin₂
        rw [heq, ht] at hu
        cases hu
        rw [hstate]
        exact .finWait1
      · exact iff_of_true rfl (hfin' heq)
    · rw [if_pos rfl]
      refine (hside.setState fun heq t ht hc => ?_).finished
      obtain ⟨u, hu, -, hstate⟩ := hin₂
      rw [heq, ht] at hu
      cases hu
      obtain ⟨hall, hnothing, -⟩ := hc.settled (Or.inl (hfin' heq))
      refine hc.setState ?_ (fun _ _ => hnothing) fun _ => ⟨hall, hnothing, rfl⟩
      show t.state.reserve ≤ _
      rw [hstate]
      decide
  | false =>
    have hside := hacked.handlePayload x.ctx q seg
    generalize m₁.handlePayload x.ctx q seg = m₂ at hin₂ hside ⊢
    split
    · rw [if_neg Bool.false_ne_true]
      refine (hside.receiveFin x.ctx.toEnv fun heq t ht => ⟨?_, ?_⟩).finished
      · obtain ⟨u, hu, -, hstate⟩ := hin₂
        rw [heq, ht] at hu
        cases hu
        rw [hstate]
        exact .closing
      · rw [hfin]
        exact ⟨nofun, nofun⟩
    · rw [if_neg Bool.false_ne_true]
      exact hside.finished

theorem handleFinWait2 (h : m.SendSide p known d) (hwf : m.WellFormed)
    (hin : m.InState q .finWait2) (hx : x.seg = some seg)
    (hack : q = p → seg.isAck = true → d.ack = some seg.ackNum) :
    (m.handleFinWait2 x.ctx q seg).SendSide p known {} := by
  have hready : Ready m q := hin.ready hwf rfl
  obtain ⟨-, hin'⟩ := path_intake_inState hready hin rfl rfl hx
  have hside := h.intake x.ctx hack
  unfold TCPConnectionManager.handleFinWait2
  dsimp only
  generalize (m.handleAck x.ctx.toEnv q seg).handlePayload x.ctx q seg = m₁ at hin' hside ⊢
  split
  · obtain ⟨d', hside', hfin'⟩ := hside.settle hin' fun _ t hq hc =>
      settled_of_resting hin' rfl hq hc
    refine ((hside'.receiveFin x.ctx.toEnv fun heq t ht => ⟨?_, ?_⟩).startTimeWaitTimer
      x.ctx.toEnv hfin').finished
    · obtain ⟨u, hu, -, hstate⟩ := hin'
      rw [heq, ht] at hu
      cases hu
      rw [hstate]
      exact .finWait2
    · exact iff_of_true rfl (hfin' heq)
  · exact hside.finished

theorem handleClosing (h : m.SendSide p known d) (hwf : m.WellFormed)
    (hin : m.InState q .closing) (hx : x.seg = some seg)
    (hack : q = p → seg.isAck = true → d.ack = some seg.ackNum) :
    (m.handleClosing x.ctx q seg).SendSide p known {} := by
  have hready : Ready m q := hin.ready hwf rfl
  obtain ⟨-, hin'⟩ := path_handleAck_inState hready hin rfl rfl x.ctx.toEnv hx
  have hside := h.handleAck x.ctx.toEnv hack
  unfold TCPConnectionManager.handleClosing
  dsimp only
  generalize m.handleAck x.ctx.toEnv q seg = m₁ at hin' hside ⊢
  split
  · rename_i hour
    rw [Bool.and_eq_true] at hour
    obtain ⟨d', hside', hfin'⟩ := hside.settle hin' fun _ t hq hc =>
      settled_of_allAcked hin' (Or.inr rfl) hour.2 hq hc
    refine ((hside'.setState fun heq t ht hc => ?_).startTimeWaitTimer x.ctx.toEnv hfin').finished
    obtain ⟨u, hu, -, hstate⟩ := hin'
    rw [heq, ht] at hu
    cases hu
    obtain ⟨hall, hnothing, -⟩ := hc.settled (Or.inl (hfin' heq))
    refine hc.setState ?_ (fun _ _ => hnothing) fun _ => ⟨hall, hnothing, rfl⟩
    show t.state.reserve ≤ _
    rw [hstate]
    decide
  · exact hside.finished

/-! ### The handshake -/

omit [ICongestionControl σ] in
/-- Both sides have sent a SYN: ours goes out again, under its number. -/
theorem tidy_simultaneousOpen {tr : List Event} (h : Conn.Tidy d ⟨q, t, tr⟩)
    (hs : t.state = .synSent) (hopen : t.Opening) (huna : t.sndUna = t.iss)
    (hfin : d.finAcked = false) (env : Env) (seg : TCPSegment) :
    Conn.Tidy d ⟨q, { (rewind seg t).sendSyn env.now (TCPFlags.syn ||| TCPFlags.ack) with
        state := .synRcvd }, tr ++ [
      .sent q .segment ((rewind seg t).segment (TCPFlags.syn ||| TCPFlags.ack) t.sndUna []),
      .moved q t.state .synRcvd]⟩ := by
  obtain ⟨hnxt, hempty, -, -, ⟨-, e, hq, hstart, hend, hdata⟩ | ⟨huna', -⟩⟩ := hopen
  swap
  · rw [huna] at huna'
    exact absurd huna' (by bv_omega)
  have hspace : seqSpace (TCPFlags.syn ||| TCPFlags.ack) 0 = 1 := by decide
  let c₁ : Conn σ := ⟨q, receiveSyn seg t, tr⟩
  have hkept : Conn.Kept d ⟨q, t, tr⟩ c₁ :=
    .of_eq d ⟨q, t, tr⟩ rfl rfl rfl rfl rfl rfl rfl rfl
  have hc₁ := hkept.tidy h
  have hreserve : c₁.tcb.state.reserve = 65535 := by
    show t.state.reserve = 65535
    rw [hs]
    rfl
  have hsound := hc₁.sound
  rw [hreserve] at hsound
  have hsyn : TCPFlags.has (TCPFlags.syn ||| TCPFlags.ack) TCPFlags.syn = true ∧
      TCPFlags.has (TCPFlags.syn ||| TCPFlags.ack) TCPFlags.fin = false := by decide
  have hagain := hsound.resyn hq hdata (by decide) hsyn
  have hsent : Conn.Sound d.ack 65535 t.sendBuffer.contents
      ⟨q, (rewind seg t).sendSyn env.now (TCPFlags.syn ||| TCPFlags.ack), tr ++ [
        .sent q .segment ((rewind seg t).segment (TCPFlags.syn ||| TCPFlags.ack) t.sndUna
          [])]⟩ := by
    refine hagain.requeue rfl rfl rfl rfl rfl rfl ?_ ?_ ?_
    · show t.iss + BitVec.ofNat 32 (seqSpace _ 0) = t.sndNxt
      rw [hspace, hnxt]
      rfl
    · show [RetransmitEntry.block ⟨t.sndUna, t.iss + BitVec.ofNat 32 (seqSpace _ 0), [], _, _, 0⟩]
        = t.retransmitQueue.map _
      rw [hq, hspace, huna]
      show [RetransmitEntry.block _] = [RetransmitEntry.block e]
      rw [RetransmitEntry.block, RetransmitEntry.block, RetransmitEntry.slots,
        RetransmitEntry.slots, hstart, hend, hdata]
      rfl
    · intro e' he'
      rw [List.mem_singleton.mp he']
      exact Nat.zero_le _
  have htrace : ∀ ev ev' : Event, tr ++ [ev, ev'] = tr ++ [ev] ++ [ev'] := fun ev ev' => by
    rw [List.append_assoc]
    rfl
  rw [htrace]
  refine ⟨hsent.setState .synRcvd, fun _ _ => ?_, ?_⟩
  · exact (StreamBuffer.empty_iff _).mp hempty
  · rintro (hd | hd)
    · rw [hfin] at hd
      cases hd
    · cases hd

omit [ICongestionControl σ] in
/-- The handshake ends. -/
theorem establish (h : m.SendSide p known d) (hfin : d.finAcked = false)
    (hopen : q = p → ∀ t, m.heap p = some t → t.state.isOpening = true) :
    (m.establish q).SendSide p known d := by
  have hset := h.setState (q := q) (s := .established) fun heq t ht hc => by
    refine hc.setState ?_ (fun hshut => nomatch hshut) ?_
    · have hs := hopen heq t ht
      show t.state.reserve ≤ _
      generalize t.state = s at hs
      cases s <;> first | exact Nat.le_refl _ | cases hs
    · rintro (hd | hd)
      · rw [hfin] at hd
        cases hd
      · cases hd
  exact hset.of_heap (fun t ht => ht) rfl rfl

/-- The end of the handshake, behind the acknowledgement of the SYN. -/
theorem established (h : m.SendSide p known d) (hq : m.heap q = some t) {c : Conn σ}
    (hown : Conn.Own ⟨q, t, m.trace⟩ c) (htidy : q = p → Conn.Tidy d ⟨q, t, m.trace⟩ → c.Tidy d)
    (hopen : c.tcb.state.isOpening = true) (hfin : d.finAcked = false) (ctx : Context σ) :
    (((m.store c).establish q).notifyConnect ctx q 0).SendSide p known d := by
  refine ((h.store hq hown htidy).establish hfin fun heq t' ht' => ?_).notifyConnect ctx q 0
  have hptr : c.ptr = q := hown.ptr
  rw [← heq, ← hptr, store_heap_self] at ht'
  cases ht'
  exact hopen

theorem handleSynSent (h : m.SendSide p known d) (hwf : m.WellFormed) (hq : m.heap q = some t)
    (hs : t.state = .synSent) (hx : x.seg = some seg)
    (hack : q = p → seg.isAck = true → d.ack = some seg.ackNum) (hfin : d.finAcked = false) :
    (m.handleSynSent x.ctx q seg).SendSide p known d := by
  by_cases hflags : (seg.isSyn && seg.isAck) = true
  · obtain ⟨hsyn, hisAck⟩ := Bool.and_eq_true _ _ ▸ hflags
    by_cases hnum : seg.ackNum = t.iss + 1
    · obtain ⟨hpath, -, heq⟩ := handleSynSent_synAck hwf hq hs hx hsyn hisAck hnum
      have hhandshake : Handshake seg t (receiveSyn seg t) := .synSent hs hsyn hnum
      have hstate := hhandshake.path_state hpath
      have hsyned : Conn.Kept d ⟨q, t, m.trace⟩ ⟨q, receiveSyn seg t, m.trace⟩ :=
        .of_eq d ⟨q, t, m.trace⟩ rfl rfl rfl rfl rfl rfl rfl rfl
      rw [heq]
      refine h.established hq ?_ (fun hqp hc => ?_) ?_ hfin x.ctx
      · exact (hsyned.own.trans (.processAck x.ctx.toEnv seg.ackNum seg.window _)).trans
          (.sendSegment x.ctx.toEnv TCPFlags.ack [] _)
      · have hacked := (hsyned.tidy hc).processAck x.ctx.toEnv (hack hqp hisAck) seg.window
        exact (Conn.Kept.bareAck d x.ctx.toEnv _).tidy hacked
      · rw [hstate, hs]
        rfl
    · rw [TCPConnectionManager.handleSynSent, if_pos hflags, test_of_heap hq,
        if_pos (bne_iff_ne.mpr hnum)]
      exact h.sendRst seg
  · rw [TCPConnectionManager.handleSynSent, if_neg hflags]
    split
    · dsimp only
      rw [modify_of_heap hq, on_store rfl _ (by simp)]
      have heq := simultaneousOpen_eq x.ctx.toEnv seg m q t
      rw [rewind] at heq
      dsimp only at heq ⊢
      rw [heq]
      refine h.store hq ⟨rfl, rfl, rfl, ?_⟩ fun hqp hc => ?_
      · exact ⟨[_, _], rfl, fun ev hev => by
          simp only [List.mem_cons, List.not_mem_nil, or_false] at hev
          rcases hev with rfl | rfl <;> rfl⟩
      · exact tidy_simultaneousOpen hc hs ((hwf.shape q t hq).sent hs)
          (hwf.unacked q t hq (Or.inl hs)) hfin x.ctx.toEnv seg
    · exact h

theorem handleSynRcvd (h : m.SendSide p known d) (hwf : m.WellFormed) (hq : m.heap q = some t)
    (hs : t.state = .synRcvd) (hx : x.seg = some seg) (hrst : seg.isRst = false)
    (hack : q = p → seg.isAck = true → d.ack = some seg.ackNum) (hfin : d.finAcked = false) :
    (m.handleSynRcvd x.ctx q seg).SendSide p known d := by
  have hnotRst : ¬ seg.isRst = true := by rw [hrst]; exact Bool.false_ne_true
  cases hisAck : seg.isAck with
  | false =>
    rw [TCPConnectionManager.handleSynRcvd, if_neg hnotRst, hisAck, Bool.not_false, if_pos rfl]
    exact h
  | true =>
    by_cases hrange : seqGt seg.ackNum t.sndUna = true ∧ seqGt seg.ackNum t.sndNxt = false
    · obtain ⟨hpath, huna, heq⟩ :=
        handleSynRcvd_ack hwf hq hs hx hrst hisAck hrange.1 hrange.2
      have hhandshake : Handshake seg t t := .synRcvd hs hrange.1 hrange.2
      have hstate := hhandshake.path_state hpath
      obtain ⟨-, hready, s, hreach, hin⟩ :=
        path_establish (o := m) hwf hx hq hisAck hhandshake hpath huna
      have hopen : ((Conn.mk q t m.trace).processAck x.ctx.toEnv seg.ackNum
          seg.window).tcb.state.isOpening = true := by
        rw [hstate, hs]
        rfl
      have hest := h.established hq (.processAck x.ctx.toEnv seg.ackNum seg.window _)
        (fun hqp hc => hc.processAck x.ctx.toEnv (hack hqp hisAck) seg.window) hopen hfin x.ctx
      rw [heq]
      dsimp only
      split
      · exact hest.handleEstablished hready hin hreach hx hack hfin
      · exact hest
    · rw [TCPConnectionManager.handleSynRcvd, if_neg hnotRst, hisAck, Bool.not_true,
        if_neg Bool.false_ne_true]
      split
      · exact h.sendRst seg
      · rename_i hinside
        rw [test_of_heap hq] at hinside
        exact absurd (by simpa using hinside) hrange

/-! ### The end of a connection -/

theorem handleLastAck (h : m.SendSide p known d) (ctx : Context σ)
    (hack : q = p → seg.isAck = true → d.ack = some seg.ackNum) :
    (m.handleLastAck ctx q seg).SendSide p known d := by
  have hside := h.handleAck ctx.toEnv hack
  unfold TCPConnectionManager.handleLastAck
  dsimp only
  split
  · exact (hside.endTcb q .lastAck).deleteTcb q
  · exact hside

omit [ICongestionControl σ] in
theorem handleTimeWait (h : m.SendSide p known d) (hin : m.InState q .timeWait) :
    (m.handleTimeWait x.ctx q seg).SendSide p known {} := by
  obtain ⟨d', hside, hfin⟩ := h.settle hin fun _ t hq hc => settled_of_resting hin rfl hq hc
  unfold TCPConnectionManager.handleTimeWait
  split
  · have hacked : (m.on q (·.sendSegment x.ctx.toEnv TCPFlags.ack [])).SendSide p known d' :=
      hside.work fun c => .bareAck d' x.ctx.toEnv c
    exact (hacked.restartTimeWaitTimer x.ctx.toEnv hfin).finished
  · exact hside.finished

theorem handleRst (h : m.SendSide p known d) (ctx : Context σ) :
    (m.handleRst ctx q seg).SendSide p known d := by
  unfold TCPConnectionManager.handleRst
  split
  · dsimp only
    split
    · have hcount : SendSide p known d { m with activeConnections := m.activeConnections - 1 } :=
        h.of_heap (fun t ht => ht) rfl rfl
      exact ((hcount.endTcb q .rst).notifyClose ctx q).deleteTcb q
    · exact ((h.endTcb q .rst).notifyClose ctx q).deleteTcb q
  · exact h

/-! ### Listening -/

theorem handleListen (h : m.SendSide p known d) (hwf : m.WellFormed) (env : Env)
    (hlisten : m.findListeningTcb seg.dstPort = some q) (hq : m.heap q = some t) :
    (m.handleListen env q seg).SendSide p known d := by
  by_cases hflags : (!seg.isSyn || seg.isAck) = true
  · simp only [TCPConnectionManager.handleListen, hq, hflags, if_true]
    exact h
  obtain ⟨hsyn, hnack⟩ : seg.isSyn = true ∧ seg.isAck = false := by simpa using hflags
  by_cases hlimit : maxConnections ≤ m.connections.length
  · simp only [TCPConnectionManager.handleListen, hq, hflags, hlimit, if_true]
    exact h
  have hlimit' : m.connections.length < maxConnections := Nat.not_le.mp hlimit
  cases hold : m.findTcb ⟨m.localIp, seg.srcAddr, seg.dstPort, seg.srcPort⟩ with
  | none =>
    rw [handleListen_of_free hwf env hsyn hnack hlisten hq hlimit' hold]
    exact h.openWith env (Or.inr rfl) rfl (unsent_acceptTcb ..)
  | some old =>
    rw [handleListen_of_found hwf env hsyn hnack hlisten hq hlimit' rfl hold]
    exact ((h.endTcb old .replaced).eraseConnection _).openWith env (Or.inr rfl) rfl
      (unsent_acceptTcb ..)

end SendSide

/-! ## Segments -/

/-- If the entry is a segment for the connection at `p`, it does not acknowledge what was
not sent. -/
def AcksInRange (p : Ptr) (m : TCPConnectionManager σ) (x : Input σ) : Prop :=
  ∀ seg t, x.op = .segment seg → seg.isRst = false → seg.isAck = true →
    m.findTcb seg.tuple = some p → m.heap p = some t → seqGt seg.ackNum t.sndNxt = false

namespace SendSide
variable {p q : Ptr} {known : Option (BitVec 32)} {m : TCPConnectionManager σ} {t : TCB σ}
  {x : Input σ} {seg : TCPSegment}

/-- What is known of a segment as it comes in. -/
theorem takeAck (h : m.SendSide p known {}) (hq : m.heap q = some t)
    (hle : q = p → seg.isAck = true → seqGt seg.ackNum t.sndNxt = false) :
    ∃ d, m.SendSide p known d ∧ (q = p → seg.isAck = true → d.ack = some seg.ackNum) ∧
      d.finAcked = false := by
  by_cases hours : q = p ∧ seg.isAck = true
  · obtain ⟨rfl, hisAck⟩ := hours
    exact ⟨{ ack := some seg.ackNum }, h.imp hq fun hc => hc.takeAck (hle rfl hisAck),
      fun _ _ => rfl, rfl⟩
  · exact ⟨{}, h, fun hqp hisAck => absurd ⟨hqp, hisAck⟩ hours, rfl⟩

variable [ICongestionControl σ]

/-- **A segment keeps the send side.** -/
theorem onSegmentReceived (h : m.SendSide p known {}) (hwf : m.WellFormed) (hx : x.seg = some seg)
    (hok : m.AcksInRange p x) : (m.onSegmentReceived x.ctx seg).SendSide p known {} := by
  unfold TCPConnectionManager.onSegmentReceived
  cases hfind : m.findTcb seg.tuple with
  | none =>
    rw [Option.orElse_eq_orElse, Option.orElse_eq_or, Option.none_or]
    cases hlisten : m.findListeningTcb seg.dstPort with
    | none =>
      dsimp only
      split
      · exact h
      · exact h.sendRst seg
    | some lp =>
      obtain ⟨t, hq, -, hs⟩ := hwf.findListening hlisten
      dsimp only
      split
      · exact h.handleRst x.ctx
      rw [hq]
      dsimp only
      rcases hs with hs | hs <;> rw [hs] <;> dsimp only
      · exact h.handleListen hwf x.ctx.toEnv hlisten hq
      · unfold handleClosed
        split
        · exact h
        · exact h.sendRst seg
  | some q =>
    obtain ⟨t, hq, -, hlisten⟩ := hwf.find hfind
    rw [Option.orElse_eq_orElse, Option.orElse_eq_or, Option.some_or]
    dsimp only
    split
    · exact h.handleRst x.ctx
    rename_i hrst
    have hrst : seg.isRst = false := by simpa using hrst
    have hle : q = p → seg.isAck = true → seqGt seg.ackNum t.sndNxt = false := by
      intro hqp hisAck
      rw [hqp] at hfind hq
      exact hok seg t (Input.op_of_seg hx) hrst hisAck hfind hq
    obtain ⟨d, hside, hack, hfin⟩ := h.takeAck hq hle
    rw [hq]
    dsimp only
    have hin : ∀ s, t.state = s → s ≠ .listen → s ≠ .closed → m.InState q s := by
      rintro s rfl hl hc
      exact ⟨t, hq, hwf.mem_connections hq hl hc, rfl⟩
    cases hs : t.state with
    | closed =>
      unfold handleClosed
      rw [hrst, if_neg Bool.false_ne_true]
      exact h.sendRst seg
    | listen => exact absurd hs hlisten
    | synSent => exact (hside.handleSynSent hwf hq hs hx hack hfin).finished
    | synRcvd => exact (hside.handleSynRcvd hwf hq hs hx hrst hack hfin).finished
    | established =>
      have hin := hin _ hs (by decide) (by decide)
      exact (hside.handleEstablished (hin.ready hwf rfl) hin (Or.inl rfl) hx hack hfin).finished
    | finWait1 => exact hside.handleFinWait1 hwf (hin _ hs (by decide) (by decide)) hx hack hfin
    | finWait2 => exact hside.handleFinWait2 hwf (hin _ hs (by decide) (by decide)) hx hack
    | closeWait => exact (hside.handleAck x.ctx.toEnv hack).finished
    | closing => exact hside.handleClosing hwf (hin _ hs (by decide) (by decide)) hx hack
    | lastAck => exact (hside.handleLastAck x.ctx hack).finished
    | timeWait => exact hside.handleTimeWait (hin _ hs (by decide) (by decide))

/-! ## The timer -/

theorem checkRetransmit (h : m.SendSide p known {}) (ctx : Context σ) (q : Ptr) :
    (m.checkRetransmit ctx q).SendSide p known {} := by
  unfold TCPConnectionManager.checkRetransmit
  split
  · have hcount : (m.on q (·.countRetransmit)).SendSide p known {} :=
      h.work fun c => .countRetransmit {} c
    dsimp only
    split
    · exact (hcount.notifyClose ctx q).endTcb q .gaveUp
    · exact hcount.work fun c => .retransmit {} ctx.toEnv c
  · exact h

/-- One connection of the sweep. -/
theorem visit {s : TCPConnectionManager σ × List TCPTuple} (h : s.1.SendSide p known {})
    (ctx : Context σ) (tuple : TCPTuple) : (visit ctx s tuple).1.SendSide p known {} := by
  unfold TCPConnectionManager.visit
  split
  · exact h
  · rename_i q _
    have hcheck := h.checkRetransmit ctx q
    dsimp only
    split
    · exact hcheck
    · exact (hcheck.work fun c => .checkDelayedAck {} ctx.toEnv c).work
        fun c => .checkZeroWindowProbe {} ctx.toEnv c

theorem sweep (order : List TCPTuple) {s : TCPConnectionManager σ × List TCPTuple}
    (h : s.1.SendSide p known {}) (ctx : Context σ) :
    (order.foldl (TCPConnectionManager.visit ctx) s).1.SendSide p known {} := by
  induction order generalizing s with
  | nil => exact h
  | cons tuple order ih => exact ih (h.visit ctx tuple)

omit [ICongestionControl σ] in
theorem eraseAll (h : m.SendSide p known {}) (l : List TCPTuple) :
    (l.foldl TCPConnectionManager.eraseConnection m).SendSide p known {} := by
  induction l generalizing m with
  | nil => exact h
  | cons tuple l ih => exact ih (h.eraseConnection tuple)

omit [ICongestionControl σ] in
theorem expireAll (h : m.SendSide p known {}) (now : Nat) (l : List (Nat × TCPTuple)) :
    SendSide p known {} (l.foldl (fun m entry =>
      if entry.1 ≤ now then m.expireTimeWait .timeWaitExpired entry.2 else m) m) := by
  induction l generalizing m with
  | nil => exact h
  | cons entry l ih =>
    rw [List.foldl_cons]
    split
    · exact ih (h.expireTimeWait .timeWaitExpired entry.2)
    · exact ih h

theorem onTimer (h : m.SendSide p known {}) (ctx : Context σ) (order : List TCPTuple) :
    (m.onTimer ctx order).SendSide p known {} := by
  unfold TCPConnectionManager.onTimer
  dsimp only
  generalize (if order.isPerm (m.connections.map (·.1)) then order
    else m.connections.map (·.1)) = keys
  have hsweep := sweep keys (s := (m, [])) h ctx
  generalize keys.foldl (TCPConnectionManager.visit ctx) (m, []) = s at hsweep
  exact ((hsweep.eraseAll s.2).expireAll ctx.now _).of_heap (fun t ht => ht) rfl rfl

/-! ## Runs -/

/-- **A step keeps the send side**, if what it acknowledges was sent. -/
theorem step (h : m.SendSide p known {}) (hwf : m.WellFormed) (hok : m.AcksInRange p x) :
    (m.step x).SendSide p known {} := by
  unfold TCPConnectionManager.step
  cases hop : x.op with
  | call a => exact h.call x.ctx.toEnv a
  | segment seg => exact h.onSegmentReceived hwf (by rw [Input.seg, hop]) hok
  | timer order => exact h.onTimer x.ctx order

/-- **A run keeps the send side.** -/
theorem run (h : m.SendSide p known {}) (hwf : m.WellFormed) {xs : List (Input σ)}
    (hok : GuardedRun.Meets TCPConnectionManager.step (AcksInRange p) m xs) :
    (GuardedRun.run TCPConnectionManager.step m xs).SendSide p known {} :=
  (hok.invariant (P := fun m => m.WellFormed ∧ m.SendSide p known {})
    (fun _ x h hx => ⟨h.1.step x, h.2.step h.1 hx⟩) ⟨hwf, h⟩).2

omit [ICongestionControl σ] in
theorem init (p : Ptr) (localIp : UInt32) :
    SendSide p none {} (TCPConnectionManager.init localIp : TCPConnectionManager σ) :=
  .unborn rfl rfl (Nat.zero_le p) rfl fun _ hev => nomatch hev

end SendSide

/-! ## The result -/

/-- The bytes of the queue are those of its blocks. -/
theorem filterMap_blocks (q : List RetransmitEntry) :
    (Tiling.items (q.map RetransmitEntry.block)).filterMap id = q.flatMap (·.data) := by
  induction q with
  | nil => rfl
  | cons e q ih =>
    have hslots : e.slots.filterMap id = e.data := by
      unfold RetransmitEntry.slots
      split
      · rename_i hdata
        exact hdata.symm
      · rw [List.filterMap_map]
        exact List.filterMap_some
    rw [List.map_cons, Tiling.items_cons, List.filterMap_append, ih, List.flatMap_cons]
    exact congrArg (· ++ _) hslots

/-- A connection in order tiles its stream. -/
theorem tiling_of_tidy {tr : List Event} {d : Intake} (h : Conn.Tidy d ⟨p, t, tr⟩) :
    t.Tiling p tr := by
  have hle := t.state.reserve_le
  obtain ⟨a, hlaid⟩ := h.sound.laid
  have hnxt : t.sndNxt = t.iss + BitVec.ofNat 32 (numbered p tr) := h.sound.sndNxt
  have huna : t.sndUna = t.iss + BitVec.ofNat 32 a := hlaid.sndUna
  have hflight : numbered p tr = a + t.inFlight :=
    (hlaid.inFlight (Nat.lt_of_le_of_lt hle (by decide)) h.sound.sndNxt).1
  refine ⟨?_, fun e he hdata => ?_, hnxt, by omega, ?_⟩
  · rw [huna, hnxt]
    exact hlaid.tiles.contiguous
  · have hsmall : e.data.length ≤ tcpMssMax := h.sound.small e he
    have hmax : tcpMssMax < 2 ^ 32 := by decide
    have hlen : e.block.items.length = e.data.length := by
      show e.slots.length = _
      rw [RetransmitEntry.slots, if_neg hdata, List.length_map]
    have hspan := hlaid.tiles.span (List.mem_map_of_mem he) (by omega)
    exact (hspan.trans hlen).symm
  · have hdrop : (stream p tr).drop a =
        Tiling.items (t.retransmitQueue.map RetransmitEntry.block) ++
          t.sendBuffer.contents.map some := hlaid.drop
    have hacked : numbered p tr - t.inFlight = a := by omega
    have hbuffer : (t.sendBuffer.contents.map some).filterMap id = t.sendBuffer.contents := by
      rw [List.filterMap_map]
      exact List.filterMap_some
    calc t.acknowledgedBytes p tr ++ t.retransmitQueue.flatMap (·.data) ++ t.sendBuffer.contents
        = ((stream p tr).take a).filterMap id ++ ((stream p tr).drop a).filterMap id := by
          rw [TCB.acknowledgedBytes, hacked, hdrop, List.filterMap_append, filterMap_blocks,
            hbuffer, List.append_assoc]
      _ = (stream p tr).filterMap id := by
          rw [← List.filterMap_append, List.take_append_drop]
      _ = acceptedBytes p tr := stream_bytes p tr

variable [ICongestionControl σ]

/-- **The send side tiles the stream.**  Take a run in which no segment for the connection
at `p` acknowledges what was not sent, and a state of it in which the TCB of the
connection is there, with an MSS that fits.  Then the TCB tiles the stream, and every
segment of the connection in the run is right. -/
theorem sendTiling (localIp : UInt32) (p : Ptr) (xs : List (Input σ))
    (h : GuardedRun.Meets step (AcksInRange p) (init localIp) xs) :
    ∀ ys, ys <+: xs → ∀ t, (GuardedRun.run step (init localIp) ys).heap p = some t → t.MssFits →
      t.Tiling p (GuardedRun.run step (init localIp) ys).trace ∧
        Wire t.iss p (GuardedRun.run step (init localIp) xs).trace := by
  rintro ys ⟨zs, rfl⟩ t hp hmss
  obtain ⟨hfirst, hrest⟩ := h.of_append
  have hwf := (WellFormed.init localIp).run ys
  have hside := (SendSide.init p localIp).run (.init localIp) hfirst
  rw [GuardedRun.run_append]
  generalize GuardedRun.run step (init localIp) ys = m at hp hrest hwf hside
  cases hside with
  | unborn _ _ _ hnone =>
    rw [hnone] at hp
    cases hp
  | unfit _ _ hunfit => exact absurd hmss (hunfit t hp)
  | tidy hborn iss _ hwire htidy =>
    obtain ⟨rfl, htidy'⟩ := htidy t hp
    refine ⟨tiling_of_tidy htidy', ?_⟩
    -- from here on the initial number is known
    have hknown : m.SendSide p (some t.iss) {} :=
      .tidy hborn t.iss (fun _ heq => Option.some.inj heq) hwire htidy
    cases hknown.run hwf hrest with
    | unborn hk => cases hk
    | unfit hk => cases hk
    | tidy _ iss' hk hwire' =>
      rw [← hk t.iss rfl]
      exact hwire'

/-! ### A partial acknowledgement -/

omit [ICongestionControl σ] in
theorem acksInRange_of_none {m : TCPConnectionManager σ} {x : Input σ} (hx : x.seg = none) :
    m.AcksInRange p x := by
  intro seg t hop
  rw [Input.seg, hop] at hx
  cases hx

omit [ICongestionControl σ] in
theorem acksInRange_of_test {m : TCPConnectionManager σ} {x : Input σ} {seg : TCPSegment}
    (hx : x.seg = some seg)
    (htest : (m.heap p).all (fun t => !seg.isAck || !seqGt seg.ackNum t.sndNxt) = true) :
    m.AcksInRange p x := by
  intro seg' t hop hrst hack _ hp
  rw [Input.seg, hop] at hx
  cases hx
  rw [hp] at htest
  simpa [hack] using htest


/-- The host accepts a connection and sends four bytes; the peer acknowledges two. -/
def partialAck : List (Input (TCPCubic Unit)) :=
  [⟨.silent 0 0, .call (.listen 80 none)⟩,
    ⟨.silent 1 100, .segment (fromPeer TCPFlags.syn 7000 0)⟩,
    ⟨.silent 2 0, .segment (fromPeer TCPFlags.ack 7001 101)⟩,
    ⟨.silent 3 0, .call (.send 1 [10, 20, 30, 40])⟩,
    ⟨.silent 4 0, .segment (fromPeer TCPFlags.ack 7001 103)⟩]

/-- The other two are still in the queue. -/
theorem sendTiling_partialAck :
    ∃ t, (GuardedRun.run step (init 0x0a000001) partialAck).heap 1 = some t ∧
      t.retransmitQueue.map (·.data) = [[30, 40]] ∧
      t.Tiling 1 (GuardedRun.run step (init 0x0a000001) partialAck).trace ∧
      Wire t.iss 1 (GuardedRun.run step (init 0x0a000001) partialAck).trace := by
  have hruns : ((GuardedRun.run step (init 0x0a000001) (partialAck.take 4)).heap 1).all
        (fun t => !seqGt (103 : BitVec 32) t.sndNxt) = true ∧
      ((GuardedRun.run step (GuardedRun.run step (init 0x0a000001) (partialAck.take 4))
          (partialAck.drop 4)).heap 1).any
        (fun t => decide (1 ≤ t.options.mss.toNat ∧ t.options.mss.toNat ≤ tcpMssMax ∧
          t.retransmitQueue.map (·.data) = [[30, 40]])) = true := by
    decide +kernel
  obtain ⟨htest, hlast⟩ := hruns
  rw [← GuardedRun.run_append, List.take_append_drop] at hlast
  have hacks : GuardedRun.Meets step (AcksInRange 1) (init 0x0a000001) partialAck :=
    ⟨acksInRange_of_none rfl,
      acksInRange_of_test rfl (by decide +kernel),
      acksInRange_of_test rfl (by decide +kernel),
      acksInRange_of_none rfl,
      acksInRange_of_test rfl htest, trivial⟩
  obtain ⟨t, hp, ht⟩ := (Option.any_eq_true ..).mp hlast
  obtain ⟨hpos, hmax, hqueue⟩ := of_decide_eq_true ht
  obtain ⟨htiling, hwire⟩ :=
    sendTiling 0x0a000001 1 partialAck hacks partialAck (List.prefix_refl _) t hp ⟨hpos, hmax⟩
  exact ⟨t, hp, hqueue, htiling, hwire⟩

end TCPConnectionManager

end NeuStack
