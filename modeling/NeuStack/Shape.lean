import NeuStack.ConnMoves

/-! # The shape of a TCB

What every move keeps about a single TCB.  While the connection opens, the SYN
is its only sequence number: `snd_nxt` is behind it, the queue holds nothing
else, and nothing waits to be sent (`Opening`).  Once the local FIN is out the
send buffer is empty.  A listening TCB has the receive variables it was made
with.
-/
namespace NeuStack
variable {σ : Type}

/-- **A connection that is opening.** -/
structure TCB.Opening (t : TCB σ) : Prop where
  sndNxt : t.sndNxt = t.iss + 1
  buffer : t.sendBuffer.empty = true
  notPending : t.closePending = false
  notDelayed : t.delayedAckPending = false
  syn : (t.sndUna = t.iss ∧ ∃ e, t.retransmitQueue = [e] ∧ e.seqStart = t.iss ∧
      e.seqEnd = t.iss + 1 ∧ e.data = []) ∨
    (t.sndUna = t.iss + 1 ∧ t.retransmitQueue = [])

/-- **The shape of a TCB** in each state. -/
structure TCB.Shape (t : TCB σ) : Prop where
  sent : t.state = .synSent → t.Opening
  rcvd : t.state = .synRcvd → t.Opening ∧ t.rcvNxt = t.irs + 1
  finSent : t.state.isActive = true → t.state.canSend = false → t.sendBuffer.empty = true
  listening : t.state = .listen → t.rcvNxt = 0 ∧ t.rcvWnd = 65535

theorem TCPState.isActive_afterFin {s : TCPState} (h : s.canSend = true) :
    s.afterFin.isActive = true := by
  cases s <;> first | rfl | cases h

/-- An acknowledgement above `n` but not above `n + 1` is one of `n + 1`. -/
theorem eq_succ_of_seqGt {a n : BitVec 32} (hgt : seqGt a n = true)
    (hle : seqGt a (n + 1) = false) : a = n + 1 := by
  rw [← Bool.not_eq_true, seqGt_iff] at hle
  rw [seqGt_iff] at hgt
  bv_omega

theorem seqGt_self (a : BitVec 32) : seqGt a a = false := by
  rw [← Bool.not_eq_true, seqGt_iff, BitVec.sub_self]
  simp

theorem seqGt_succ (a : BitVec 32) : seqGt (a + 1) a = true := by
  rw [seqGt_iff]
  bv_omega

namespace TCB
variable {t t' : TCB σ}

/-- The SYN is acknowledged as soon as `snd_una` is not on it. -/
theorem Opening.acked (h : t.Opening) (hne : t.sndUna ≠ t.iss) :
    t.sndUna = t.iss + 1 ∧ t.retransmitQueue = [] := by
  rcases h.syn with ⟨hiss, -⟩ | hacked
  · exact absurd hiss hne
  · exact hacked

/-- An active TCB has its shape if its buffer is empty or it may still send. -/
theorem Shape.of_active (hs : t.state.isActive = true)
    (hbuf : t.state.canSend = false → t.sendBuffer.empty = true) : t.Shape where
  sent h := by rw [h] at hs; cases hs
  rcvd h := by rw [h] at hs; cases hs
  finSent _ h := hbuf h
  listening h := by rw [h] at hs; cases hs

theorem Shape.of_sent (hs : t.state = .synSent) (ho : t.Opening) : t.Shape := by
  refine ⟨fun _ => ho, fun h => ?_, fun h => ?_, fun h => ?_⟩ <;> rw [hs] at h <;> cases h

theorem Shape.of_rcvd (hs : t.state = .synRcvd) (ho : t.Opening) (hrcv : t.rcvNxt = t.irs + 1) :
    t.Shape := by
  refine ⟨fun h => ?_, fun _ => ⟨ho, hrcv⟩, fun h => ?_, fun h => ?_⟩ <;> rw [hs] at h <;> cases h

theorem Shape.of_closed (hs : t.state = .closed) : t.Shape := by
  refine ⟨fun h => ?_, fun h => ?_, fun h => ?_, fun h => ?_⟩ <;> rw [hs] at h <;> cases h

/-- Opening is about the send side alone. -/
theorem Opening.congr (h : t.Opening) (hiss : t'.iss = t.iss) (huna : t'.sndUna = t.sndUna)
    (hnxt : t'.sndNxt = t.sndNxt) (hbuf : t'.sendBuffer = t.sendBuffer)
    (hq : t'.retransmitQueue = t.retransmitQueue) (hpend : t'.closePending = t.closePending)
    (hack : t'.delayedAckPending = t.delayedAckPending) : t'.Opening := by
  obtain ⟨h1, h2, h3, h4, h5⟩ := h
  exact ⟨by rw [hnxt, hiss, h1], by rw [hbuf, h2], by rw [hpend, h3], by rw [hack, h4],
    by rw [huna, hiss, hq]; exact h5⟩

/-- A change that spares what the shape speaks of. -/
theorem Shape.congr (h : t.Shape) (hstate : t'.state = t.state) (hiss : t'.iss = t.iss)
    (hrcv : t'.toTCBReceive = t.toTCBReceive) (huna : t'.sndUna = t.sndUna)
    (hnxt : t'.sndNxt = t.sndNxt) (hbuf : t'.sendBuffer = t.sendBuffer)
    (hq : t'.retransmitQueue = t.retransmitQueue) (hpend : t'.closePending = t.closePending)
    (hack : t'.delayedAckPending = t.delayedAckPending)
    (hwnd : t.state = .listen → t'.rcvWnd = t.rcvWnd) : t'.Shape where
  sent hs := (h.sent (hstate ▸ hs)).congr hiss huna hnxt hbuf hq hpend hack
  rcvd hs := by
    obtain ⟨ho, hr⟩ := h.rcvd (hstate ▸ hs)
    rw [hrcv]
    exact ⟨ho.congr hiss huna hnxt hbuf hq hpend hack, hr⟩
  finSent hs hc := by
    rw [hbuf]
    exact h.finSent (hstate ▸ hs) (hstate ▸ hc)
  listening hs := by
    have hl := h.listening (hstate ▸ hs)
    rw [hrcv, hwnd (hstate ▸ hs)]
    exact hl

/-- The first SYN of a TCB opens it. -/
theorem opening_sendSyn (now : Nat) {flags : UInt8}
    (hflags : flags = TCPFlags.syn ∨ flags = TCPFlags.syn ||| TCPFlags.ack)
    (huna : t.sndUna = t.iss) (hnxt : t.sndNxt = t.iss) (hq : t.retransmitQueue = [])
    (hbuf : t.sendBuffer.empty = true) (hpend : t.closePending = false)
    (hdelay : t.delayedAckPending = false) : (t.sendSyn now flags).Opening := by
  have hspace : seqSpace flags 0 = 1 := by rcases hflags with rfl | rfl <;> rfl
  have hend : (t.sendSyn now flags).sndNxt = t.iss + 1 := by
    simp only [sendSyn, enqueue, countSent, hspace, hnxt]
    rfl
  refine ⟨hend, hbuf, hpend, hdelay, Or.inl ⟨huna,
    ⟨t.sndUna, (t.sendSyn now flags).sndNxt, [], now, now + t.rtoUs.toNat, 0⟩, ?_, huna, hend, rfl⟩⟩
  show t.retransmitQueue ++ _ = _
  rw [hq]
  rfl

end TCB

namespace Conn
variable [ICongestionControl σ] {x : Option TCPSegment} {c c' : Conn σ}

/-- Of an opening connection, only an acknowledgement of the SYN advances. -/
theorem opening_advance (env : Env) {ackNum : BitVec 32} (h : c.tcb.Opening)
    (hgt : seqGt ackNum c.tcb.sndUna = true)
    (hack : ackNum = c.tcb.iss + 1 ∨ seqGt ackNum c.tcb.sndNxt = false) :
    (c.advance env ackNum).tcb.Opening := by
  obtain ⟨hnxt, hbuf, hpend, hdelay, hsyn⟩ := h
  rcases hsyn with ⟨huna, e, hq, hstart, hend, hdata⟩ | ⟨huna, hq⟩
  · have hackNum : ackNum = c.tcb.iss + 1 := by
      rcases hack with hack | hack
      · exact hack
      · rw [hnxt] at hack
        exact eq_succ_of_seqGt (huna ▸ hgt) hack
    refine ⟨hnxt, hbuf, hpend, hdelay, Or.inr ⟨hackNum, ?_⟩⟩
    have hle : seqLe e.seqEnd ackNum = true := by
      rw [hend, hackNum, seqLe_eq_not_seqGt, seqGt_self]
      rfl
    simp only [advance, hq, trimQueue, hle, if_true]
  · -- the SYN was acknowledged before: nothing is left to acknowledge
    have hfalse : seqGt ackNum c.tcb.sndUna = false := by
      rcases hack with hack | hack
      · rw [hack, huna, seqGt_self]
      · rw [huna, ← hnxt, hack]
    rw [hfalse] at hgt
    cases hgt

omit [ICongestionControl σ] in
theorem shape_ack (env : Env) (h : c.tcb.Shape) :
    (c.sendSegment env TCPFlags.ack []).tcb.Shape :=
  h.congr (by simp) (by simp) (by simp) (by simp) (by simp) (by simp) (by simp) (by simp) (by simp)
    (fun _ => by simp)

/-- **Every move keeps the shape.** -/
theorem Move.shape (h : Move x c c') (hc : c.tcb.Shape) : c'.tcb.Shape := by
  cases h with
  | advance env c seg hx hack hgt hsent hrcvd =>
    refine ⟨fun hs => ?_, fun hs => ?_, fun hs hcan => hc.finSent hs hcan,
      fun hs => hc.listening hs⟩
    · exact opening_advance env (hc.sent hs) hgt (Or.inl (hsent hs))
    · exact ⟨opening_advance env (hc.rcvd hs).1 hgt (Or.inr (hrcvd hs)), (hc.rcvd hs).2⟩
  | touchHead c e rest count timeout hq =>
    have hopen : c.tcb.Opening → ∀ count timeout, ({ c.tcb with
        retransmitQueue := { e with retransmitCount := count, timeout := timeout } :: rest } :
          TCB σ).Opening := by
      intro ho count timeout
      obtain ⟨hnxt, hbuf, hpend, hdelay, ⟨huna, e', hq', hstart, hend, hdata⟩ | ⟨-, hq'⟩⟩ := ho
      · rw [hq] at hq'
        cases hq'
        exact ⟨hnxt, hbuf, hpend, hdelay, Or.inl ⟨huna, _, rfl, hstart, hend, hdata⟩⟩
      · rw [hq] at hq'
        cases hq'
    exact ⟨fun hs => hopen (hc.sent hs) _ _, fun hs => ⟨hopen (hc.rcvd hs).1 _ _, (hc.rcvd hs).2⟩,
      fun hs hcan => hc.finSent hs hcan, fun hs => hc.listening hs⟩
  | resend => rwa [rawSend_tcb]
  | resendBare => rwa [rawSend_tcb]
  | probe => rwa [sendZeroWindowProbe_tcb]
  | ack env c hs => exact shape_ack env hc
  | delayAck c hs => exact .of_active hs (hc.finSent hs)
  | delayedAck env c hpend =>
    -- an opening connection has no acknowledgement pending
    have hne : ¬ c.tcb.Opening := fun h => by rw [h.notDelayed] at hpend; cases hpend
    have hs := shape_ack env hc
    have hstate := sendSegment_state env TCPFlags.ack [] c
    exact ⟨fun h => absurd (hc.sent (hstate ▸ h)) hne, fun h => absurd (hc.rcvd (hstate ▸ h)).1 hne,
      hs.finSent, hs.listening⟩
  | rcvWnd c hs =>
    exact hc.congr rfl rfl rfl rfl rfl rfl rfl rfl rfl (fun h => absurd h hs)
  | drain env c hbuf hav =>
    -- only a state that may send has something in its buffer
    have hfull : c.tcb.sendBuffer.empty ≠ true := by rw [hbuf]; exact Bool.false_ne_true
    have hstate := drainStep_state env c
    refine ⟨fun h => absurd (hc.sent (hstate ▸ h)).buffer hfull,
      fun h => absurd (hc.rcvd (hstate ▸ h)).1.buffer hfull,
      fun h hcan => absurd (hc.finSent (hstate ▸ h) (hstate ▸ hcan)) hfull, fun h => ?_⟩
    simpa only [drainStep, sendSegment_receive, sendSegment_rcvWnd]
      using hc.listening (hstate ▸ h)
  | bufferData c data hs hne hfit =>
    exact .of_active (TCPState.isActive_of_canSend hs)
      (fun h => absurd h (by rw [buffer_tcb, log_tcb, hs]; exact Bool.noConfusion))
  | transmitData env c data n hs =>
    refine .of_active ?_ (fun h => absurd h ?_)
    all_goals rw [buffer_tcb, sendSegment_state, log_tcb]
    · exact TCPState.isActive_of_canSend hs
    · rw [hs]
      exact Bool.noConfusion
  | setPending c hs hbuf =>
    exact .of_active (TCPState.isActive_of_canSend hs)
      (fun h => absurd h (by rw [hs]; exact Bool.noConfusion))
  | dropPending c hs hbuf hpend =>
    -- nor does it have a close pending
    have hne : ¬ c.tcb.Opening := fun h => by rw [h.notPending] at hpend; cases hpend
    exact ⟨fun h => absurd (hc.sent h) hne, fun h => absurd (hc.rcvd h).1 hne, hc.finSent,
      hc.listening⟩
  | deferredFin env c hs hbuf =>
    refine .of_active (TCPState.isActive_afterFin hs) (fun _ => ?_)
    rwa [setState_tcb, sendSegment_sendBuffer]
  | finish env c s hs hactual hbuf =>
    refine .of_active (TCPState.isActive_afterFin hs) (fun _ => ?_)
    rwa [setState_tcb, sendSegment_sendBuffer, log_tcb]
  | _ => exact hc.congr rfl rfl rfl rfl rfl rfl rfl rfl rfl (fun _ => rfl)

theorem Path.shape (h : Path x c c') (hc : c.tcb.Shape) : c'.tcb.Shape := by
  induction h with
  | refl => exact hc
  | tail _ hmove ih => exact hmove.shape ih

end Conn

end NeuStack
