import NeuStack.CheckedControllers

/-! # Checked divisions of a connection

The functions on a connection that divide, or call one that does, once more with their
divisors checked: those that write to the send buffer (`send`), take bytes out of it
(`send_buffered_data` and its callers), and `process_ack`, which informs the controller and
takes the sample.  The others do not divide.

What the divisions rest on is `TCB.NonzeroDivisors`: a positive MSS and a controller in
order.  The capacity of the buffer may be zero; the loop of `send_buffered_data` looks for a
byte before it consumes one.
-/
namespace NeuStack
open Checked
variable {σ : Type} [ICongestionControl σ] [CheckedControl σ]

/-- **What the divisions of a connection rest on.** -/
structure TCB.NonzeroDivisors (t : TCB σ) : Prop where
  mss : 0 < t.options.mss
  control : ∀ cc, t.congestionControl = some cc → cc.Installed

namespace TCB.NonzeroDivisors
variable {t u : TCB σ}

theorem congr (h : t.NonzeroDivisors) (hopts : u.options = t.options)
    (hcc : u.congestionControl = t.congestionControl) : u.NonzeroDivisors :=
  ⟨hopts ▸ h.mss, fun cc he => h.control cc (hcc.symm.trans he)⟩

/-- The controller is told something. -/
theorem map (h : t.NonzeroDivisors) {f : CongestionControl σ → CongestionControl σ}
    (hf : ∀ cc : CongestionControl σ, cc.Installed → (f cc).Installed)
    (hopts : u.options = t.options) (hcc : u.congestionControl = t.congestionControl.map f) :
    u.NonzeroDivisors := by
  refine ⟨hopts ▸ h.mss, fun cc he => ?_⟩
  rw [hcc, Option.map_eq_some_iff] at he
  obtain ⟨cc', he', rfl⟩ := he
  exact hf cc' (h.control cc' he')

omit [ICongestionControl σ] [CheckedControl σ] in
theorem mss_ne {mss : UInt16} (h : 0 < mss) : mss.toUInt32 ≠ 0 := by
  intro hzero
  have hnat := congrArg UInt32.toNat hzero
  rw [UInt16.toNat_toUInt32] at hnat
  have hpos := UInt16.lt_iff_toNat_lt.mp h
  rw [hnat] at hpos
  exact absurd hpos (by decide)

end TCB.NonzeroDivisors

namespace Conn

/-! ## The checked functions -/

/-- One round of the loop of `send_buffered_data`. -/
def drainStep? (env : Env) (c : Conn σ) : Option (Conn σ) := do
  let toSend := chunk c.tcb
  let c := c.sendSegment env (TCPFlags.ack ||| TCPFlags.psh)
    (c.tcb.sendBuffer.peekContiguous.take toSend)
  let consumed ← c.tcb.sendBuffer.consume? toSend
  some { c with tcb := { c.tcb with sendBuffer := consumed.2 } }

/-- The loop of `send_buffered_data`, for at most `fuel` rounds. -/
def drain? (env : Env) : Nat → Conn σ → Option (Conn σ)
  | 0, c => some c
  | fuel + 1, c =>
    if c.tcb.sendBuffer.empty then some c
    else if c.tcb.availableWindow = 0 then some c
    else do
      let c ← c.drainStep? env
      drain? env fuel c

/-- `send_buffered_data`. -/
def sendBufferedData? (env : Env) (c : Conn σ) : Option (Conn σ) := do
  let c ← c.drain? env c.tcb.sendBuffer.size
  some (c.updateRcvWnd.completeClose env)

omit [ICongestionControl σ] [CheckedControl σ] in
/-- Append to the send buffer. -/
def buffer? (data : List UInt8) (c : Conn σ) : Option (Conn σ) := do
  let written ← c.tcb.sendBuffer.write? data
  some { c with tcb := { c.tcb with sendBuffer := written.2 } }

/-- `send()`, with the count or error it returns. -/
def send? (env : Env) (data : List UInt8) (c : Conn σ) : Option (Int × Conn σ) :=
  if !c.tcb.state.canSend then some (-1, c)
  else if data.length = 0 then some (0, c)
  else if c.tcb.sendBuffer.available = 0 then some (-1, c)
  else
    let accepted := min data.length c.tcb.sendBuffer.available
    let data := data.take accepted
    let c := c.log (.accepted c.ptr data)
    let mss := c.tcb.options.mss.toNat
    if !c.tcb.sendBuffer.empty then (c.buffer? data).map (accepted, ·)
    else if c.tcb.options.nagleEnabled && c.tcb.sndNxt != c.tcb.sndUna && accepted < mss then
      (c.buffer? data).map (accepted, ·)
    else if c.tcb.availableWindow = 0 then (c.buffer? data).map (accepted, ·)
    else
      let toSend := min (min accepted c.tcb.availableWindow) mss
      let c := c.sendSegment env (TCPFlags.ack ||| TCPFlags.psh) (data.take toSend)
      do
        let c ← (if toSend < accepted then c.buffer? (data.drop toSend) else some c)
        (if !c.tcb.sendBuffer.empty then c.sendBufferedData? env else some c).map (accepted, ·)

/-- `close()` in `ESTABLISHED` and `CLOSE_WAIT`. -/
def finish? (env : Env) (c : Conn σ) : Option (Conn σ) := do
  let entered := c.tcb.state
  let c ← c.sendBufferedData? env
  some (if !c.tcb.sendBuffer.empty then { c with tcb := { c.tcb with closePending := true } }
    else
      ((c.log (.finishing c.ptr entered c.tcb.state)).sendSegment env
        (TCPFlags.fin ||| TCPFlags.ack) []).setState entered.afterFin)

/-- The part of `process_ack` that moves `snd_una`, informs the congestion
controller and trims the queue. -/
def advance? (env : Env) (ackNum : BitVec 32) (c : Conn σ) : Option (Conn σ) := do
  let t := c.tcb
  let bytesAcked := UInt32.ofNat (ackNum - t.sndUna).toNat
  let (rtt, queue) :=
    trimQueue env.now (t.state == .established) ackNum t.toTCBRtt t.retransmitQueue
  let congestionControl ← (match t.congestionControl with
    | some cc => (cc.onAck? bytesAcked t.srttUs env.now).map some
    | none => some none)
  some { c with tcb := { t with
      sndUna := ackNum
      congestionControl
      bytesAckedPeriod := t.bytesAckedPeriod + bytesAcked
      toTCBRtt := rtt
      retransmitQueue := queue
      dupAckCount := 0
      lastAckNum := ackNum } }

/-- The sample `process_ack` pushes: its window is given in segments. -/
def sample? (env : Env) (c : Conn σ) : Option (Conn σ) :=
  let t := c.tcb
  if env.metricsBuf && 0 < t.bytesSentPeriod && t.lastSampleTimeUs + 10000 ≤ env.now then do
    let _ ← (match t.congestionControl with
      | some _ => divisor? t.options.mss.toUInt32
      | none => some 1)
    some (c.sample env)
  else some c

/-- `process_ack`. -/
def processAck? (env : Env) (ackNum : BitVec 32) (window : UInt16) (c : Conn σ) :
    Option (Conn σ) :=
  let oldWnd := c.tcb.sndWnd
  let c := { c with tcb := { c.tcb with sndWnd := window.toNat } }
  let c := c.checkDupAck ackNum
  if !seqGt ackNum c.tcb.sndUna then
    if oldWnd = 0 ∧ 0 < window then c.sendBufferedData? env else some c
  else do
    let c ← c.advance? env ackNum
    let c ← c.sendBufferedData? env
    c.sample? env

/-! ## The functions that do not divide -/

variable {c : Conn σ} (env : Env)

theorem sendSegment_divisors (h : c.tcb.NonzeroDivisors) (flags : UInt8) (data : List UInt8) :
    (c.sendSegment env flags data).tcb.NonzeroDivisors :=
  h.congr (congrArg TCBIdentity.options (sendSegment_identity ..))
    (sendSegment_congestionControl ..)

theorem completeClose_divisors (h : c.tcb.NonzeroDivisors) :
    (c.completeClose env).tcb.NonzeroDivisors := by
  rw [completeClose]
  split
  · dsimp only
    split
    · refine (sendSegment_divisors env ?_ _ _).congr rfl rfl
      exact h.congr rfl rfl
    · exact h.congr rfl rfl
  · exact h

theorem acknowledgeData_divisors (h : c.tcb.NonzeroDivisors) :
    (c.acknowledgeData env).tcb.NonzeroDivisors := by
  rw [acknowledgeData]
  split
  · split
    · exact h.congr rfl rfl
    · exact (sendSegment_divisors env h _ _).congr rfl rfl
  · exact sendSegment_divisors env h _ _

theorem checkDelayedAck_divisors (h : c.tcb.NonzeroDivisors) :
    (c.checkDelayedAck env).tcb.NonzeroDivisors := by
  rw [checkDelayedAck]
  split
  · exact (sendSegment_divisors env h _ _).congr rfl rfl
  · exact h

theorem checkZeroWindowProbe_divisors (h : c.tcb.NonzeroDivisors) :
    (c.checkZeroWindowProbe env).tcb.NonzeroDivisors := by
  rw [checkZeroWindowProbe]
  split
  · split
    · exact h.congr rfl rfl
    · split
      · refine TCB.NonzeroDivisors.congr (t := c.sendZeroWindowProbe.tcb) ?_ rfl rfl
        rw [sendZeroWindowProbe_tcb]
        exact h
      · exact h
  · exact h.congr rfl rfl

theorem checkDupAck_divisors (h : c.tcb.NonzeroDivisors) (ackNum : BitVec 32) :
    (c.checkDupAck ackNum).tcb.NonzeroDivisors := by
  have hloss : ∀ cc : CongestionControl σ, cc.Installed → (cc.onLoss 0).Installed :=
    fun _ hcc => hcc.onLoss 0
  have hreno : ∀ cc : CongestionControl σ, cc.Installed → cc.renoDupAck.Installed :=
    fun _ hcc => hcc.reno (Or.inl rfl)
  unfold checkDupAck
  split
  · exact h
  split
  · exact h
  split
  · exact h.map hreno rfl rfl
  split
  · dsimp only
    split
    · rw [rawSend_tcb]
      exact h.map hloss rfl rfl
    · exact h.map hloss rfl rfl
  · exact h.congr rfl rfl

theorem countRetransmit_divisors (h : c.tcb.NonzeroDivisors) :
    c.countRetransmit.tcb.NonzeroDivisors := by
  rw [countRetransmit]
  split
  · exact h
  · exact h.map (fun _ hcc => hcc.reno (Or.inr rfl)) rfl rfl

theorem retransmit_divisors (h : c.tcb.NonzeroDivisors) :
    (c.retransmit env).tcb.NonzeroDivisors := by
  unfold retransmit
  split
  · exact h
  · dsimp only
    split
    · rw [rawSend_tcb]
      exact h.congr rfl rfl
    · split
      · rw [rawSend_tcb]
        exact h.congr rfl rfl
      · exact h.congr rfl rfl

/-! ## The functions that do go through -/

/-- The checked computation on a connection goes through and keeps what it rests on. -/
abbrev Divides (r : Option (Conn σ)) (c : Conn σ) : Prop :=
  Goes (fun c : Conn σ => c.tcb.NonzeroDivisors) r c

theorem drainStep_divides (h : c.tcb.NonzeroDivisors) (hbytes : c.tcb.sendBuffer.empty = false) :
    Divides (c.drainStep? env) (c.drainStep env) := by
  rw [drainStep?]
  dsimp only
  rw [sendSegment_sendBuffer, StreamBuffer.consume?_eq hbytes]
  refine ⟨?_, (sendSegment_divisors env h _ _).congr rfl rfl⟩
  rw [drainStep]
  dsimp only
  rw [sendSegment_sendBuffer]
  rfl

/-- The loop finds a byte before each round. -/
theorem drain_divides (h : c.tcb.NonzeroDivisors) (fuel : Nat) :
    Divides (c.drain? env fuel) (c.drain env fuel) := by
  induction fuel generalizing c with
  | zero => exact .some h
  | succ fuel ih =>
    rw [drain?, drain]
    refine .ite (fun _ => .some h) fun hbytes => ?_
    refine .ite (fun _ => .some h) fun _ => ?_
    exact (drainStep_divides env h (Bool.eq_false_iff.mpr hbytes)).bind fun hstep => ih hstep

theorem sendBufferedData_divides (h : c.tcb.NonzeroDivisors) :
    Divides (c.sendBufferedData? env) (c.sendBufferedData env) := by
  refine (drain_divides env h _).bind fun hdrain => .some ?_
  exact completeClose_divisors env (hdrain.congr rfl rfl)

theorem buffer_divides (h : c.tcb.NonzeroDivisors) (data : List UInt8) :
    Divides (c.buffer? data) (c.buffer data) := by
  rw [buffer?, StreamBuffer.write?_eq]
  exact .some (h.congr rfl rfl)

theorem send_divides (h : c.tcb.NonzeroDivisors) (data : List UInt8) :
    Goes (fun r : Int × Conn σ => r.2.tcb.NonzeroDivisors) (c.send? env data)
      (c.send env data) := by
  rw [send?, send]
  refine .ite (fun _ => .some h) fun _ => ?_
  refine .ite (fun _ => .some h) fun _ => ?_
  refine .ite (fun _ => .some h) fun _ => ?_
  dsimp only [log_tcb]
  have hlog : (c.log (.accepted c.ptr (data.take (min data.length
      c.tcb.sendBuffer.available)))).tcb.NonzeroDivisors := h
  refine .ite (fun _ => (buffer_divides hlog _).map id) fun _ => ?_
  refine .ite (fun _ => (buffer_divides hlog _).map id) fun _ => ?_
  refine .ite (fun _ => (buffer_divides hlog _).map id) fun _ => ?_
  have hsent := sendSegment_divisors env hlog (TCPFlags.ack ||| TCPFlags.psh)
  refine Goes.bind (.ite (fun _ => buffer_divides (hsent _) _) fun _ => .some (hsent _))
    fun hrest => ?_
  exact Goes.map (.ite (fun _ => sendBufferedData_divides env hrest) fun _ => .some hrest) id

theorem finish_divides (h : c.tcb.NonzeroDivisors) :
    Divides (c.finish? env) (c.finish env) := by
  refine (sendBufferedData_divides env h).bind fun hsent => .some ?_
  have hlog : ((c.sendBufferedData env).log (.finishing (c.sendBufferedData env).ptr c.tcb.state
      (c.sendBufferedData env).tcb.state)).tcb.NonzeroDivisors := hsent
  dsimp only
  split
  · exact hsent.congr rfl rfl
  · exact (sendSegment_divisors env hlog _ _).congr rfl rfl

theorem advance_divides (h : c.tcb.NonzeroDivisors) {ackNum : BitVec 32}
    (hgt : seqGt ackNum c.tcb.sndUna = true) :
    Divides (c.advance? env ackNum) (c.advance env ackNum) := by
  have hbytes : (UInt32.ofNat (ackNum - c.tcb.sndUna).toNat).toNat < 2 ^ 31 := by
    have hlt := ((SerialNumber.gt_iff _ _).mp hgt).2
    rw [UInt32.toNat_ofNat_of_lt' (BitVec.isLt _)]
    omega
  have hcontrol := h.control
  rw [advance?, advance]
  dsimp only
  cases hcc : c.tcb.congestionControl with
  | none => exact .some ⟨h.mss, fun _ he => by cases he⟩
  | some cc =>
    have hack : Goes CongestionControl.Installed
        (cc.onAck? (UInt32.ofNat (ackNum - c.tcb.sndUna).toNat) c.tcb.srttUs env.now)
        (cc.onAck (UInt32.ofNat (ackNum - c.tcb.sndUna).toNat) c.tcb.srttUs env.now) :=
      (hcontrol cc hcc).onAck_goes hbytes
    refine Goes.bind (hack.map (f := some) (Q := fun r => ∀ cc, r = some cc → cc.Installed)
      fun hi _ he => Option.some.inj he ▸ hi) fun hi => .some ?_
    exact ⟨h.mss, hi⟩

theorem sample_divides (h : c.tcb.NonzeroDivisors) :
    Divides (c.sample? env) (c.sample env) := by
  rw [sample?]
  split
  · rename_i hdue
    have hkeep : (c.sample env).tcb.NonzeroDivisors := by
      rw [sample]
      dsimp only
      rw [if_pos hdue]
      exact h.congr rfl rfl
    cases c.tcb.congestionControl with
    | none => exact .some hkeep
    | some cc => exact .divide (TCB.NonzeroDivisors.mss_ne h.mss) (.some hkeep)
  · rename_i hnot
    rw [sample]
    dsimp only
    rw [if_neg hnot]
    exact .some h

/-- **`process_ack` divides by nothing that is zero.** -/
theorem processAck_divides (h : c.tcb.NonzeroDivisors) (ackNum : BitVec 32) (window : UInt16) :
    Divides (c.processAck? env ackNum window) (c.processAck env ackNum window) := by
  have hwnd : ({ c.tcb with sndWnd := window.toNat } : TCB σ).NonzeroDivisors := h.congr rfl rfl
  have hdup := checkDupAck_divisors (c := { c with tcb := { c.tcb with sndWnd := window.toNat } })
    hwnd ackNum
  rw [processAck?, processAck]
  dsimp only
  refine .ite (fun _ => ?_) fun hgt => ?_
  · exact .ite (fun _ => sendBufferedData_divides env hdup) fun _ => .some hdup
  · rw [Bool.not_eq_true, Bool.not_eq_false'] at hgt
    refine (advance_divides env hdup hgt).bind fun hadv => ?_
    refine (sendBufferedData_divides env hadv).bind fun hsent => ?_
    exact sample_divides env hsent

end Conn
end NeuStack
