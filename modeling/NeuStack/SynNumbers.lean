import NeuStack.QuotedStream

/-! # The number of the SYN

A connection gives its first number to its SYN, whatever way the SYN goes out: as a first SYN,
as the SYN+ACK of a listener, once more as a SYN+ACK in a simultaneous open, or again when
it is not acknowledged in time (`syns_numbered`).  The retransmission takes the number from the
queue, so this rests on the shape of an opening connection, whose queue holds nothing
but the SYN.
-/
namespace NeuStack
variable {σ : Type}

/-- If the event is a SYN of the connection at `p`, its number is `iss`. -/
def Event.SynAt (iss : BitVec 32) (p : Ptr) (ev : Event) : Prop :=
  ∀ path seg, ev = .sent p path seg → seg.isSyn = true → seg.seqNum = iss

namespace Event
variable {iss : BitVec 32} {p : Ptr} {ev : Event} {path : SendPath} {seg : TCPSegment}

theorem synAt_of_notSent (h : ∀ path seg, ev ≠ .sent p path seg) : ev.SynAt iss p :=
  fun path seg heq => absurd heq (h path seg)

theorem synAt_plain (h : seg.isSyn = false) : (Event.sent p path seg).SynAt iss p := by
  intro path' seg' heq hsyn
  cases heq
  rw [h] at hsyn
  cases hsyn

theorem synAt_numbered (h : seg.seqNum = iss) : (Event.sent p path seg).SynAt iss p := by
  intro path' seg' heq _
  cases heq
  exact h

end Event

namespace Conn

/-- Behind `c` the connection sends SYNs under its first number only. -/
abbrev NumbersSyns (c c' : Conn σ) : Prop :=
  Grows (Event.SynAt c.tcb.iss c.ptr) c.trace c'.trace

variable [ICongestionControl σ] {x : Option TCPSegment} {c c' : Conn σ}

omit [ICongestionControl σ] in
theorem numbersSyns_sendSegment (env : Env) (flags : UInt8)
    (hflags : TCPFlags.has flags TCPFlags.syn = false) (data : List UInt8) (c : Conn σ) :
    c.NumbersSyns (c.sendSegment env flags data) := by
  unfold sendSegment
  split
  · exact .refl _
  · exact .single (Event.synAt_plain hflags)

omit [ICongestionControl σ] in
theorem numbersSyns_rawSend (flags : UInt8) (seq : BitVec 32) (data : List UInt8) (c : Conn σ)
    (h : TCPFlags.has flags TCPFlags.syn = false ∨ seq = c.tcb.iss) :
    c.NumbersSyns (c.rawSend flags seq data) := by
  unfold rawSend
  split
  · exact .refl _
  · rcases h with hflags | hseq
    · exact .single (Event.synAt_plain hflags)
    · exact .single (Event.synAt_numbered hseq)

omit [ICongestionControl σ] in
theorem numbersSyns_probe (c : Conn σ) : c.NumbersSyns c.sendZeroWindowProbe := by
  unfold sendZeroWindowProbe
  split
  · exact .refl _
  · exact .single (Event.synAt_plain (show TCPFlags.has TCPFlags.ack TCPFlags.syn = false by decide))

omit [ICongestionControl σ] in
theorem numbersSyns_log (c : Conn σ) {ev : Event} (h : ∀ path seg, ev ≠ .sent c.ptr path seg) :
    c.NumbersSyns (c.log ev) := .single (Event.synAt_of_notSent h)

omit [ICongestionControl σ] in
/-- What is sent again without data is a SYN only while the connection opens. -/
theorem numbersSyns_resendBare (hshape : c.tcb.Shape) {e : RetransmitEntry}
    {rest : List RetransmitEntry} (hq : c.tcb.retransmitQueue = e :: rest) :
    c.NumbersSyns (c.rawSend (retransmitFlags c.tcb.state) e.seqStart []) := by
  have hopening : c.tcb.Opening → e.seqStart = c.tcb.iss := by
    intro hopen
    rcases hopen.syn with ⟨-, e', hq', hstart, -⟩ | ⟨-, hq'⟩
    · rw [hq] at hq'
      cases hq'
      exact hstart
    · rw [hq] at hq'
      cases hq'
  refine numbersSyns_rawSend _ _ _ c ?_
  cases hs : c.tcb.state with
  | synSent => exact Or.inr (hopening (hshape.sent hs))
  | synRcvd => exact Or.inr (hopening (hshape.rcvd hs).1)
  | _ => exact Or.inl (by decide)

/-- **A move numbers its SYNs.** -/
theorem Move.numbersSyns (h : Move x c c') (hshape : c.tcb.Shape) : c.NumbersSyns c' := by
  cases h with
  | sampled => exact numbersSyns_log c fun _ _ => Event.noConfusion
  | resend c e rest flags _ _ hflags =>
    refine numbersSyns_rawSend _ _ _ c (Or.inl ?_)
    rcases hflags with rfl | rfl <;> decide
  | resendBare c e rest hq => exact numbersSyns_resendBare hshape hq
  | probe c => exact numbersSyns_probe c
  | ack env c => exact numbersSyns_sendSegment env _ (by decide) [] c
  | delayedAck env c => exact numbersSyns_sendSegment env _ (by decide) [] c
  | drain env c => exact numbersSyns_sendSegment env _ (by decide) _ c
  | bufferData c => exact numbersSyns_log c fun _ _ => Event.noConfusion
  | transmitData env c data n =>
    exact (numbersSyns_log c fun _ _ => Event.noConfusion).trans
      (numbersSyns_sendSegment env _ (by decide) _ (c.log (.accepted c.ptr data)))
  | deferredFin env c =>
    exact (numbersSyns_sendSegment env _ (by decide) []
      { c with tcb := { c.tcb with closePending := false } }).snoc
      (Event.synAt_of_notSent fun _ _ => Event.noConfusion)
  | finish env c s =>
    have hlog : c.NumbersSyns (c.log (.finishing c.ptr s c.tcb.state)) :=
      numbersSyns_log c fun _ _ => Event.noConfusion
    exact (hlog.trans (numbersSyns_sendSegment env _ (by decide) [] (c.log _))).snoc
      (Event.synAt_of_notSent fun _ _ => Event.noConfusion)
  | _ => exact .refl _

/-! ## Histories -/

theorem Turn.shape (h : Turn c c') (hc : c.tcb.Shape) : c'.tcb.Shape := by
  cases h with
  | move hmove => exact hmove.shape hc
  | silent => exact hc
  | state _ _ _ hshape => exact hshape
  | receive _ _ _ _ hshape => exact hshape
  | reopen _ seg now hs hopen huna =>
    exact .of_sent hs (TCB.opening_sendSyn now (Or.inr rfl) huna rfl rfl hopen.buffer
      hopen.notPending hopen.notDelayed)
  | release _ _ hshape => exact hshape

/-- **A turn numbers its SYNs.** -/
theorem Turn.numbersSyns (h : Turn c c') (hshape : c.tcb.Shape) : c.NumbersSyns c' := by
  cases h with
  | move hmove => exact hmove.numbersSyns hshape
  | silent _ hev => exact .single (Event.synAt_of_notSent hev.notSent)
  | reopen _ _ _ _ _ huna => exact .single (Event.synAt_numbered huna)
  | _ => exact .refl _

theorem Turns.numbersSyns (h : Turns c c') (hshape : c.tcb.Shape) :
    c'.tcb.Shape ∧ c.NumbersSyns c' := by
  induction h with
  | refl => exact ⟨hshape, .refl _⟩
  | tail hpath hturn ih =>
    obtain ⟨hshape', hgrows⟩ := ih
    have hlast := hturn.numbersSyns hshape'
    rw [NumbersSyns, Turns.ptr hpath, (Turns.kept hpath).1] at hlast
    exact ⟨hturn.shape hshape', hgrows.trans hlast⟩

omit [ICongestionControl σ] in
theorem Fresh.shape (h : Fresh c) : c.tcb.Shape := by
  cases h with
  | listen => exact ⟨nofun, nofun, nofun, fun _ => ⟨rfl, rfl⟩⟩
  | opened _ _ _ _ _ hshape => exact hshape

end Conn
end NeuStack
