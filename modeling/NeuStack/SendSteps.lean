import NeuStack.ConnMoves

/-! # What the functions that send are made of

Every function that sends is a path of steps that leave the RTT measurement, the queue and the
controller alone, log an event that is not a numbered segment, or send one (`Out`).  What
the steps leave alone, the functions do.
-/
namespace NeuStack
variable {σ : Type}

/-- A segment of `send_segment` or `raw_send`. -/
def Event.isNumbered : Event → Bool
  | .sent _ .segment _ | .sent _ .raw _ => true
  | _ => false

namespace Conn

/-- One of the steps that the functions that send are made of. -/
inductive Out (env : Env) : Conn σ → Conn σ → Prop
  | still {c c' : Conn σ} (hrtt : c'.tcb.toTCBRtt = c.tcb.toTCBRtt)
      (hq : c'.tcb.retransmitQueue = c.tcb.retransmitQueue)
      (hdup : c'.tcb.dupAckCount = c.tcb.dupAckCount)
      (hcc : c'.tcb.congestionControl = c.tcb.congestionControl) (htrace : c'.trace = c.trace) :
      Out env c c'
  | log (c : Conn σ) {ev : Event} (h : ev.isNumbered = false) : Out env c (c.log ev)
  | segment (c : Conn σ) {flags : UInt8} (data : List UInt8)
      (hsyn : TCPFlags.has flags TCPFlags.syn = false) : Out env c (c.sendSegment env flags data)

/-- A sequence of them. -/
abbrev Outs (env : Env) : Conn σ → Conn σ → Prop := Relation.ReflTransGen (Out env)

variable {env : Env} {c : Conn σ}

theorem outs_log {ev : Event} (h : ev.isNumbered = false) (c : Conn σ) : Outs env c (c.log ev) :=
  .single (.log c h)

theorem outs_setState (c : Conn σ) (s : TCPState) : Outs env c (c.setState s) :=
  (outs_log rfl c).tail (.still rfl rfl rfl rfl rfl)

theorem outs_ack (c : Conn σ) : Outs env c (c.sendSegment env TCPFlags.ack []) :=
  .single (.segment c [] rfl)

theorem outs_data (c : Conn σ) (data : List UInt8) :
    Outs env c (c.sendSegment env (TCPFlags.ack ||| TCPFlags.psh) data) :=
  .single (.segment c data rfl)

theorem outs_fin (c : Conn σ) :
    Outs env c (c.sendSegment env (TCPFlags.fin ||| TCPFlags.ack) []) :=
  .single (.segment c [] rfl)

theorem outs_acknowledgeData (c : Conn σ) : Outs env c (c.acknowledgeData env) := by
  rw [acknowledgeData]
  split
  · split
    · exact .single (.still rfl rfl rfl rfl rfl)
    · exact (outs_ack c).tail (.still rfl rfl rfl rfl rfl)
  · exact outs_ack c

theorem outs_checkDelayedAck (c : Conn σ) : Outs env c (c.checkDelayedAck env) := by
  rw [checkDelayedAck]
  split
  · exact (outs_ack c).tail (.still rfl rfl rfl rfl rfl)
  · exact .refl

theorem outs_probe (c : Conn σ) : Outs env c c.sendZeroWindowProbe := by
  rw [sendZeroWindowProbe]
  split
  · exact .refl
  · exact outs_log rfl c

theorem outs_checkZeroWindowProbe (c : Conn σ) : Outs env c (c.checkZeroWindowProbe env) := by
  rw [checkZeroWindowProbe]
  split
  · split
    · exact .single (.still rfl rfl rfl rfl rfl)
    · split
      · exact (outs_probe c).tail (.still rfl rfl rfl rfl rfl)
      · exact .refl
  · exact .single (.still rfl rfl rfl rfl rfl)

theorem outs_completeClose (c : Conn σ) : Outs env c (c.completeClose env) := by
  rw [completeClose]
  split
  · dsimp only
    have hdone : Outs env c { c with tcb := { c.tcb with closePending := false } } :=
      .single (.still rfl rfl rfl rfl rfl)
    split
    · exact (hdone.trans (outs_fin _)).trans (outs_setState _ _)
    · exact hdone
  · exact .refl

variable [ICongestionControl σ]

theorem outs_sample (c : Conn σ) : Outs env c (c.sample env) := by
  rw [sample]
  dsimp only
  split
  · exact (outs_log rfl c).tail (.still rfl rfl rfl rfl rfl)
  · exact .refl

theorem outs_drainStep (c : Conn σ) : Outs env c (c.drainStep env) := by
  rw [drainStep]
  exact (outs_data c _).tail (.still rfl rfl rfl rfl rfl)

theorem outs_drain (c : Conn σ) (fuel : Nat) : Outs env c (c.drain env fuel) :=
  drain_induction (motive := Outs env c) env (fun c' h => h.trans (outs_drainStep c')) fuel .refl

theorem outs_sendBufferedData (c : Conn σ) : Outs env c (c.sendBufferedData env) := by
  have hdrained : Outs env c (c.drain env c.tcb.sendBuffer.size).updateRcvWnd :=
    (outs_drain c _).tail (.still rfl rfl rfl rfl rfl)
  exact hdrained.trans (outs_completeClose _)

theorem outs_send (c : Conn σ) (data : List UInt8) : Outs env c (c.send env data).2 := by
  rw [send]
  split
  · exact .refl
  split
  · exact .refl
  split
  · exact .refl
  dsimp only
  generalize hacc : min data.length c.tcb.sendBuffer.available = accepted
  have hlog : Outs env c (c.log (.accepted c.ptr (data.take accepted))) := outs_log rfl c
  have hbuffered : Outs env c ((c.log (.accepted c.ptr (data.take accepted))).buffer
      (data.take accepted)) :=
    hlog.tail (.still rfl rfl rfl rfl rfl)
  split
  · exact hbuffered
  split
  · exact hbuffered
  split
  · exact hbuffered
  generalize min (min accepted _) _ = n
  have hsent := hlog.trans (outs_data _ ((data.take accepted).take n))
  generalize (c.log (.accepted c.ptr (data.take accepted))).sendSegment env
    (TCPFlags.ack ||| TCPFlags.psh) ((data.take accepted).take n) = c₁ at hsent ⊢
  have hrest : Outs env c
      (if n < accepted then c₁.buffer ((data.take accepted).drop n) else c₁) := by
    split
    · exact hsent.tail (.still rfl rfl rfl rfl rfl)
    · exact hsent
  generalize (if n < accepted then c₁.buffer ((data.take accepted).drop n) else c₁) = c₂ at hrest ⊢
  dsimp only
  split
  · exact hrest.trans (outs_sendBufferedData c₂)
  · exact hrest

theorem outs_finish (c : Conn σ) : Outs env c (c.finish env) := by
  have hbuffer : Outs env c (c.sendBufferedData env) := outs_sendBufferedData c
  rw [finish]
  dsimp only
  split
  · exact hbuffer.tail (.still rfl rfl rfl rfl rfl)
  · exact ((hbuffer.trans (outs_log rfl _)).trans (outs_fin _)).trans (outs_setState _ _)

end Conn

end NeuStack
