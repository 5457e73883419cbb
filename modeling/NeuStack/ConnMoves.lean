import NeuStack.Acknowledge
import Mathlib.Logic.Relation

/-! # The moves of one connection

Every function that works on a single connection is a sequence of a few kinds of
**moves** (`Move`), each with the condition under which the code makes it.  An
invariant of connections is proved once for each kind of move; that every
function keeps it is then the path rule.

`ConnStep` lists the functions themselves with the conditions their callers
establish.  A property that only holds between calls, not between moves, is
proved of these.
-/
namespace NeuStack
variable {σ : Type} [ICongestionControl σ]

omit [ICongestionControl σ] in
/-- The receive side knows the peer's initial number: the connection is
synchronized, or about to be. -/
def TCB.Synced (t : TCB σ) : Prop := t.state.isActive = true ∨ t.rcvNxt = t.irs + 1

namespace Conn

/-- **One move of a connection**, made while `x`, if it is a segment, is processed. -/
inductive Move (x : Option TCPSegment) : Conn σ → Conn σ → Prop
  /-- Timers, RTT measurement and counters. -/
  | idle (c : Conn σ) (rtt : TCBRtt) (sampling : TCBSampling) (dupAckCount : Nat)
      (lastAckNum : BitVec 32) (lastActivity : Nat) (probeNeeded : Bool)
      (zwpTime delayedAckTime : Nat) :
      Move x c { c with tcb := { c.tcb with
        toTCBRtt := rtt, toTCBSampling := sampling, dupAckCount := dupAckCount,
        lastAckNum := lastAckNum, lastActivity := lastActivity,
        zeroWindowProbeNeeded := probeNeeded, zwpTime := zwpTime,
        delayedAckTime := delayedAckTime } }
  | sampled (c : Conn σ) (sample : TCPSample) : Move x c (c.log (.sampled c.ptr sample))
  | window (c : Conn σ) (seg : TCPSegment) (hx : x = some seg) (hack : seg.isAck = true) :
      Move x c { c with tcb := { c.tcb with sndWnd := seg.window.toNat } }
  | loss (c : Conn σ) :
      Move x c { c with tcb := { c.tcb with
        congestionControl := c.tcb.congestionControl.map (·.onLoss 0) } }
  | reno (c : Conn σ) (f : CongestionControl σ → CongestionControl σ)
      (hf : f = CongestionControl.renoDupAck ∨ f = CongestionControl.renoTimeout) :
      Move x c { c with tcb := { c.tcb with
        congestionControl := c.tcb.congestionControl.map f } }
  | advance (env : Env) (c : Conn σ) (seg : TCPSegment) (hx : x = some seg)
      (hack : seg.isAck = true) (hgt : seqGt seg.ackNum c.tcb.sndUna = true)
      (hsent : c.tcb.state = .synSent → seg.ackNum = c.tcb.iss + 1)
      (hrcvd : c.tcb.state = .synRcvd → seqGt seg.ackNum c.tcb.sndNxt = false) :
      Move x c (c.advance env seg.ackNum)
  /-- The timer data of the head of the queue. -/
  | touchHead (c : Conn σ) (e : RetransmitEntry) (rest : List RetransmitEntry) (count timeout : Nat)
      (hq : c.tcb.retransmitQueue = e :: rest) :
      Move x c { c with tcb := { c.tcb with
        retransmitQueue := { e with retransmitCount := count, timeout := timeout } :: rest } }
  | resend (c : Conn σ) (e : RetransmitEntry) (rest : List RetransmitEntry) (flags : UInt8)
      (hq : c.tcb.retransmitQueue = e :: rest) (hdata : e.data ≠ [])
      (hflags : flags = TCPFlags.ack ∨ flags = TCPFlags.ack ||| TCPFlags.psh) :
      Move x c (c.rawSend flags e.seqStart (e.data.take c.tcb.options.mss.toNat))
  | resendBare (c : Conn σ) (e : RetransmitEntry) (rest : List RetransmitEntry)
      (hq : c.tcb.retransmitQueue = e :: rest) (hdata : e.data = [])
      (hflags : retransmitFlags c.tcb.state ≠ 0) :
      Move x c (c.rawSend (retransmitFlags c.tcb.state) e.seqStart [])
  | probe (c : Conn σ) (hwnd : c.tcb.sndWnd = 0) (hbuf : c.tcb.sendBuffer.empty = false) :
      Move x c c.sendZeroWindowProbe
  | ack (env : Env) (c : Conn σ) (hs : c.tcb.Synced) : Move x c (c.sendSegment env TCPFlags.ack [])
  | delayAck (c : Conn σ) (hs : c.tcb.state.isActive = true) :
      Move x c { c with tcb := { c.tcb with delayedAckPending := true } }
  | delayedAck (env : Env) (c : Conn σ) (hpend : c.tcb.delayedAckPending = true) :
      Move x c { c.sendSegment env TCPFlags.ack [] with
        tcb := { (c.sendSegment env TCPFlags.ack []).tcb with delayedAckPending := false } }
  | rcvWnd (c : Conn σ) (hs : c.tcb.state ≠ .listen) : Move x c c.updateRcvWnd
  | drain (env : Env) (c : Conn σ) (hbuf : c.tcb.sendBuffer.empty = false)
      (hav : c.tcb.availableWindow ≠ 0) : Move x c (c.drainStep env)
  /-- `send()` with everything buffered. -/
  | bufferData (c : Conn σ) (data : List UInt8) (hs : c.tcb.state.canSend = true)
      (hne : data ≠ []) (hfit : data.length ≤ c.tcb.sendBuffer.available) :
      Move x c ((c.log (.accepted c.ptr data)).buffer data)
  /-- `send()` with the first `n` bytes on the wire. -/
  | transmitData (env : Env) (c : Conn σ) (data : List UInt8) (n : Nat)
      (hs : c.tcb.state.canSend = true) (hne : data ≠ [])
      (hfit : data.length ≤ c.tcb.sendBuffer.available) (hbuf : c.tcb.sendBuffer.empty = true)
      (hav : c.tcb.availableWindow ≠ 0)
      (hn : n = min (min data.length c.tcb.availableWindow) c.tcb.options.mss.toNat) :
      Move x c (((c.log (.accepted c.ptr data)).sendSegment env (TCPFlags.ack ||| TCPFlags.psh)
        (data.take n)).buffer (data.drop n))
  | setPending (c : Conn σ) (hs : c.tcb.state.canSend = true)
      (hbuf : c.tcb.sendBuffer.empty = false) :
      Move x c { c with tcb := { c.tcb with closePending := true } }
  | dropPending (c : Conn σ) (hs : c.tcb.state.canSend = false)
      (hbuf : c.tcb.sendBuffer.empty = true) (hpend : c.tcb.closePending = true) :
      Move x c { c with tcb := { c.tcb with closePending := false } }
  /-- The FIN of a `close()` that had to wait. -/
  | deferredFin (env : Env) (c : Conn σ) (hs : c.tcb.state.canSend = true)
      (hbuf : c.tcb.sendBuffer.empty = true) (hpend : c.tcb.closePending = true) :
      Move x c (({ c with tcb := { c.tcb with closePending := false } }.sendSegment env
        (TCPFlags.fin ||| TCPFlags.ack) []).setState c.tcb.state.afterFin)
  /-- The FIN of a `close()` entered in state `s`; its own drain may have
  completed an earlier `close()`. -/
  | finish (env : Env) (c : Conn σ) (s : TCPState) (hs : s.canSend = true)
      (hactual : c.tcb.state = s ∨ c.tcb.state = s.afterFin)
      (hbuf : c.tcb.sendBuffer.empty = true) :
      Move x c (((c.log (.finishing c.ptr s c.tcb.state)).sendSegment env
        (TCPFlags.fin ||| TCPFlags.ack) []).setState s.afterFin)

/-- A sequence of moves. -/
abbrev Path (x : Option TCPSegment) : Conn σ → Conn σ → Prop := Relation.ReflTransGen (Move x)

/-! ## The functions as sequences of moves -/

variable {x : Option TCPSegment} (env : Env) (c : Conn σ)

theorem path_drain (fuel : Nat) : Path x c (c.drain env fuel) := by
  induction fuel generalizing c with
  | zero => exact .refl
  | succ fuel ih =>
    unfold drain
    split
    · exact .refl
    · rename_i hbuf
      split
      · exact .refl
      · rename_i hav
        exact .head (.drain env c (Bool.not_eq_true _ ▸ hbuf) hav) (ih _)

/-- What holds before the drain and is kept by each round holds after it. -/
theorem drain_induction {motive : Conn σ → Prop}
    (hstep : ∀ c, motive c → motive (c.drainStep env)) (fuel : Nat) {c : Conn σ}
    (hc : motive c) : motive (c.drain env fuel) := by
  induction fuel generalizing c with
  | zero => exact hc
  | succ fuel ih =>
    unfold drain
    split
    · exact hc
    · split
      · exact hc
      · exact ih (hstep c hc)

@[simp] theorem drainStep_ptr : (c.drainStep env).ptr = c.ptr := by
  simp only [drainStep, sendSegment_ptr]

@[simp] theorem drainStep_state : (c.drainStep env).tcb.state = c.tcb.state := by
  simp only [drainStep, sendSegment_state]

@[simp] theorem drain_state (fuel : Nat) : (c.drain env fuel).tcb.state = c.tcb.state :=
  drain_induction (motive := fun c' => c'.tcb.state = c.tcb.state) env
    (fun c' h => by rw [drainStep_state, h]) fuel rfl

theorem path_completeClose : Path x c (c.completeClose env) := by
  unfold completeClose
  split
  · rename_i h
    rw [Bool.and_eq_true] at h
    dsimp only
    split
    · rename_i hs
      exact .single (.deferredFin env c hs h.1 h.2)
    · rename_i hs
      exact .single (.dropPending c (Bool.not_eq_true _ ▸ hs) h.1 h.2)
  · exact .refl

theorem path_sendBufferedData (hs : c.tcb.state ≠ .listen) : Path x c (c.sendBufferedData env) :=
  ((path_drain env c _).tail (.rcvWnd _ (by rwa [drain_state]))).trans (path_completeClose env _)

omit [ICongestionControl σ] in
theorem buffer_nil : c.buffer [] = c := by
  simp [buffer, StreamBuffer.write]

theorem path_send (data : List UInt8) : Path x c (c.send env data).2 := by
  unfold send
  split
  · exact .refl
  rename_i hs
  have hs : c.tcb.state.canSend = true := by simpa using hs
  split
  · exact .refl
  split
  · exact .refl
  rename_i hlen hspace
  dsimp only
  generalize hacc : min data.length c.tcb.sendBuffer.available = accepted
  have hle : (data.take accepted).length = accepted := by rw [List.length_take]; omega
  have hne : data.take accepted ≠ [] := by
    rw [← List.length_pos_iff_ne_nil, hle]
    omega
  have hfit : (data.take accepted).length ≤ c.tcb.sendBuffer.available := by omega
  have hbuffer : Path x c ((c.log (.accepted c.ptr (data.take accepted))).buffer
      (data.take accepted)) := .single (.bufferData c _ hs hne hfit)
  split
  · exact hbuffer
  rename_i hbuf
  split
  · exact hbuffer
  split
  · exact hbuffer
  rename_i hav
  have hbuf : c.tcb.sendBuffer.empty = true := by simpa using hbuf
  have hmove : Move x c _ := .transmitData env c (data.take accepted) _ hs hne hfit hbuf hav rfl
  rw [hle] at hmove
  generalize hn : min (min accepted c.tcb.availableWindow) c.tcb.options.mss.toNat = n at hmove
  simp only [log_tcb, hn]
  -- nothing is buffered when everything went out
  have hrest : ∀ c' : Conn σ, (if n < accepted then c'.buffer ((data.take accepted).drop n) else c')
      = c'.buffer ((data.take accepted).drop n) := by
    intro c'
    split
    · rfl
    · rw [List.drop_eq_nil_of_le (by omega), buffer_nil]
  rw [hrest]
  split
  · refine (Relation.ReflTransGen.single hmove).trans (path_sendBufferedData env _ ?_)
    rw [buffer_tcb, sendSegment_state, log_tcb]
    exact c.tcb.state.ne_listen_of_canSend hs
  · exact .single hmove

/-- Draining the buffer changes the state only by a FIN that was waiting for it. -/
theorem sendBufferedData_state :
    (c.sendBufferedData env).tcb.state = c.tcb.state ∨
      (c.tcb.state.canSend = true ∧ (c.sendBufferedData env).tcb.sendBuffer.empty = true ∧
        (c.sendBufferedData env).tcb.state = c.tcb.state.afterFin) := by
  unfold sendBufferedData completeClose
  have hstate : ((c.drain env c.tcb.sendBuffer.size).updateRcvWnd).tcb.state = c.tcb.state :=
    drain_state env c _
  generalize (c.drain env c.tcb.sendBuffer.size).updateRcvWnd = d at hstate
  rw [← hstate]
  split
  · rename_i h
    rw [Bool.and_eq_true] at h
    dsimp only
    split
    · rename_i hs
      refine Or.inr ⟨hs, ?_, rfl⟩
      rw [setState_tcb, sendSegment_sendBuffer]
      exact h.1
    · exact Or.inl rfl
  · exact Or.inl rfl

theorem path_finish (hs : c.tcb.state.canSend = true) : Path x c (c.finish env) := by
  unfold finish
  have hstate := sendBufferedData_state env c
  have hpath : Path x c (c.sendBufferedData env) :=
    path_sendBufferedData env c (c.tcb.state.ne_listen_of_canSend hs)
  dsimp only
  split
  · rename_i hbuf
    have hbuf : (c.sendBufferedData env).tcb.sendBuffer.empty = false := by simpa using hbuf
    rcases hstate with hstate | ⟨-, hempty, -⟩
    · exact hpath.tail (.setPending _ (hstate ▸ hs) hbuf)
    · rw [hempty] at hbuf
      cases hbuf
  · rename_i hbuf
    refine hpath.tail (.finish env _ _ hs ?_ (by simpa using hbuf))
    rcases hstate with hstate | ⟨-, -, hstate⟩
    · exact Or.inl hstate
    · exact Or.inr hstate

theorem path_acknowledgeData (hs : c.tcb.state.isActive = true) :
    Path x c (c.acknowledgeData env) := by
  unfold acknowledgeData
  split
  · split
    · exact (Relation.ReflTransGen.single (.delayAck c hs)).tail (.idle _ _ _ _ _ _ _ _ _)
    · rename_i hpend
      exact .single (.delayedAck env c (by simpa using hpend))
  · exact .single (.ack env c (Or.inl hs))

theorem path_checkDelayedAck : Path x c (c.checkDelayedAck env) := by
  unfold checkDelayedAck
  split
  · rename_i h
    rw [Bool.and_eq_true] at h
    exact .single (.delayedAck env c h.1)
  · exact .refl

theorem path_checkZeroWindowProbe : Path x c (c.checkZeroWindowProbe env) := by
  unfold checkZeroWindowProbe
  split
  · rename_i h
    split
    · exact .single (.idle c _ _ _ _ _ _ _ _)
    · split
      · exact (Relation.ReflTransGen.single (.probe c h.1 h.2)).tail (.idle _ _ _ _ _ _ _ _ _)
      · exact .refl
  · exact .single (.idle c _ _ _ _ _ _ _ _)

/-- `check_dup_ack` touches the congestion controller and the counters. -/
theorem checkDupAck_tcb (ackNum : BitVec 32) : ∃ cc sampling dup,
    (c.checkDupAck ackNum).tcb = { c.tcb with
      congestionControl := cc, toTCBSampling := sampling, dupAckCount := dup } := by
  unfold checkDupAck rawSend
  split
  · exact ⟨_, _, _, rfl⟩
  · split
    · exact ⟨_, _, _, rfl⟩
    · split
      · exact ⟨_, _, _, rfl⟩
      · split
        · dsimp only
          split
          · split <;> exact ⟨_, _, _, rfl⟩
          · exact ⟨_, _, _, rfl⟩
        · exact ⟨_, _, _, rfl⟩

theorem path_checkDupAck (ackNum : BitVec 32) : Path x c (c.checkDupAck ackNum) := by
  unfold checkDupAck
  split
  · exact .refl
  · rename_i entry rest hq
    split
    · exact .refl
    · split
      · exact .single (.reno c _ (Or.inl rfl))
      · split
        · have hloss : Path x c { c with tcb := { c.tcb with
              packetsLostPeriod := c.tcb.packetsLostPeriod + 1
              congestionControl := c.tcb.congestionControl.map (·.onLoss 0)
              dupAckCount := 0 } } :=
            (Relation.ReflTransGen.single (.loss c)).tail (.idle _ _ _ _ _ _ _ _ _)
          dsimp only
          split
          · rename_i hdata
            exact hloss.tail (.resend _ entry rest _ hq (List.length_pos_iff_ne_nil.mp hdata)
              (Or.inl rfl))
          · exact hloss
        · exact .single (.idle c _ _ _ _ _ _ _ _)

theorem path_sample : Path x c (c.sample env) := by
  unfold sample
  dsimp only
  split
  · exact (Relation.ReflTransGen.single (.sampled c _)).tail (.idle _ _ _ _ _ _ _ _ _)
  · exact .refl

theorem path_processAck {seg : TCPSegment} (hx : x = some seg) (hack : seg.isAck = true)
    (hs : c.tcb.state ≠ .listen)
    (hsent : c.tcb.state = .synSent → seg.ackNum = c.tcb.iss + 1)
    (hrcvd : c.tcb.state = .synRcvd → seqGt seg.ackNum c.tcb.sndNxt = false) :
    Path x c (c.processAck env seg.ackNum seg.window) := by
  unfold processAck
  dsimp only
  generalize hc' : ({ c with tcb := { c.tcb with sndWnd := seg.window.toNat } } : Conn σ) = c'
  have hpath : Path x c (c'.checkDupAck seg.ackNum) := by
    rw [← hc']
    exact (Relation.ReflTransGen.single (.window c seg hx hack)).trans (path_checkDupAck _ _)
  obtain ⟨cc, sampling, dup, htcb⟩ := checkDupAck_tcb c' seg.ackNum
  have hs' : (c'.checkDupAck seg.ackNum).tcb.state ≠ .listen := by
    rw [htcb, ← hc']
    exact hs
  split
  · split
    · exact hpath.trans (path_sendBufferedData env _ hs')
    · exact hpath
  · rename_i hgt
    have hadv : Move x (c'.checkDupAck seg.ackNum)
        ((c'.checkDupAck seg.ackNum).advance env seg.ackNum) := by
      refine .advance env _ seg hx hack (by simpa using hgt) ?_ ?_
      all_goals
        rw [htcb, ← hc']
        assumption
    exact ((hpath.tail hadv).trans (path_sendBufferedData env _ hs')).trans (path_sample env _)

theorem path_countRetransmit : Path x c c.countRetransmit := by
  unfold countRetransmit
  split
  · exact .refl
  · rename_i entry rest hq
    exact (Relation.ReflTransGen.single
      (.touchHead c entry rest (entry.retransmitCount + 1) entry.timeout hq)).tail
      (.reno _ _ (Or.inr rfl))

theorem path_retransmit : Path x c (c.retransmit env) := by
  unfold retransmit
  split
  · exact .refl
  · rename_i entry rest hq
    dsimp only
    generalize hrto : (min (c.tcb.rtoUs * 2) 60000000 : UInt32) = rtoUs
    have hpath : Path x c { c with tcb := { c.tcb with
        packetsLostPeriod := c.tcb.packetsLostPeriod + 1
        rtoUs := rtoUs
        rttMeasuring := false
        retransmitQueue := { entry with timeout := env.now + rtoUs.toNat } :: rest } } :=
      (Relation.ReflTransGen.single (.touchHead c entry rest entry.retransmitCount
        (env.now + rtoUs.toNat) hq)).tail (.idle _ _ _ _ _ _ _ _ _)
    split
    · rename_i hdata
      exact hpath.tail (.resend _ { entry with timeout := env.now + rtoUs.toNat } rest _ rfl
        (List.length_pos_iff_ne_nil.mp hdata) (Or.inr rfl))
    · rename_i hdata
      have hnil : entry.data = [] := by
        rw [← List.length_eq_zero_iff]
        omega
      split
      · rename_i hflags
        exact hpath.tail (.resendBare _ { entry with timeout := env.now + rtoUs.toNat } rest rfl hnil
          hflags)
      · exact hpath

/-! ## What no move changes -/

variable {c} {c' : Conn σ}

theorem Move.ptr (h : Move x c c') : c'.ptr = c.ptr := by
  cases h <;> first | rfl | simp only [rawSend_ptr, sendZeroWindowProbe_ptr, sendSegment_ptr,
    drainStep_ptr, buffer_ptr, log_ptr, setState_ptr]

theorem Move.identity (h : Move x c c') : c'.tcb.toTCBIdentity = c.tcb.toTCBIdentity := by
  cases h <;> first | rfl | simp only [rawSend_tcb, sendZeroWindowProbe_tcb, drainStep, buffer_tcb,
    setState_tcb, sendSegment_identity, log_tcb]

theorem Move.receive (h : Move x c c') : c'.tcb.toTCBReceive = c.tcb.toTCBReceive := by
  cases h <;> first | rfl | simp only [rawSend_tcb, sendZeroWindowProbe_tcb, drainStep, buffer_tcb,
    setState_tcb, sendSegment_receive, log_tcb]

/-- A move keeps the state, or takes it where the local FIN leads. -/
theorem Move.state (h : Move x c c') : c'.tcb.state = c.tcb.state ∨
    (c.tcb.state.canSend = true ∧ c'.tcb.state = c.tcb.state.afterFin) := by
  cases h with
  | deferredFin env c hs => exact Or.inr ⟨hs, rfl⟩
  | finish env c s hs hactual =>
    rcases hactual with hactual | hactual
    · exact Or.inr ⟨hactual ▸ hs, by rw [hactual]; rfl⟩
    · exact Or.inl hactual.symm
  | _ =>
    left
    first | rfl | simp only [rawSend_tcb, sendZeroWindowProbe_tcb, drainStep_state, buffer_tcb,
      sendSegment_state, log_tcb]

omit [ICongestionControl σ] in
theorem grows_log {ev : Event} (h : ev.From c.ptr) : c.TraceGrows (c.log ev) := .single h

omit [ICongestionControl σ] in
theorem grows_setState {p : Ptr} (hptr : c.ptr = p) {s : TCPState} (hs : s.canSend = false) :
    Grows (Event.From p) c.trace (c.setState s).trace := by
  subst hptr
  exact .single (.moved _ hs)

theorem Move.grows (h : Move x c c') : c.TraceGrows c' := by
  cases h with
  | sampled => exact grows_log (.sampled _)
  | resend => exact grows_rawSend _ _ _ _
  | resendBare => exact grows_rawSend _ _ _ _
  | probe => exact grows_sendZeroWindowProbe _
  | ack => exact grows_sendSegment _ _ _ _
  | delayedAck => exact grows_sendSegment _ _ _ _
  | drain => exact grows_sendSegment _ _ _ _
  | bufferData => exact grows_log (.accepted _)
  | transmitData env c => exact (grows_log (.accepted _)).trans (grows_sendSegment env _ _ (c.log _))
  | deferredFin env c =>
    exact (grows_sendSegment env _ [] { c with tcb := { c.tcb with closePending := false } }).trans
      (grows_setState (sendSegment_ptr ..) (TCPState.canSend_afterFin _))
  | finish env c =>
    exact ((grows_log (.finishing _ _)).trans (grows_sendSegment env _ [] (c.log _))).trans
      (grows_setState (sendSegment_ptr ..) (TCPState.canSend_afterFin _))
  | _ => exact .refl _

/-! ## The functions -/

/-- **One call of a function that works on one connection**, under the
conditions its callers establish. -/
inductive ConnStep (x : Option TCPSegment) : Conn σ → Conn σ → Prop
  | send (env : Env) (c : Conn σ) (data : List UInt8) : ConnStep x c (c.send env data).2
  | finish (env : Env) (c : Conn σ) (hs : c.tcb.state.canSend = true) :
      ConnStep x c (c.finish env)
  | processAck (env : Env) (c : Conn σ) (seg : TCPSegment) (hx : x = some seg)
      (hack : seg.isAck = true) (hs : c.tcb.state.isActive = true) :
      ConnStep x c (c.processAck env seg.ackNum seg.window)
  | ack (env : Env) (c : Conn σ) (hs : c.tcb.Synced) :
      ConnStep x c (c.sendSegment env TCPFlags.ack [])
  | acknowledgeData (env : Env) (c : Conn σ) (hs : c.tcb.state.isActive = true) :
      ConnStep x c (c.acknowledgeData env)
  | updateRcvWnd (c : Conn σ) (hs : c.tcb.state ≠ .listen) : ConnStep x c c.updateRcvWnd
  | checkDelayedAck (env : Env) (c : Conn σ) : ConnStep x c (c.checkDelayedAck env)
  | checkZeroWindowProbe (env : Env) (c : Conn σ) : ConnStep x c (c.checkZeroWindowProbe env)
  | countRetransmit (c : Conn σ) : ConnStep x c c.countRetransmit
  | retransmit (env : Env) (c : Conn σ) : ConnStep x c (c.retransmit env)

/-- **Every function is a sequence of moves.** -/
theorem ConnStep.path (h : ConnStep x c c') : Path x c c' := by
  cases h with
  | send env c data => exact path_send env c data
  | finish env c hs => exact path_finish env c hs
  | processAck env c seg hx hack hs =>
    refine path_processAck env c hx hack ?_ ?_ ?_ <;>
    · intro h
      rw [h] at hs
      cases hs
  | ack env c hs => exact .single (.ack env c hs)
  | acknowledgeData env c hs => exact path_acknowledgeData env c hs
  | updateRcvWnd c hs => exact .single (.rcvWnd c hs)
  | checkDelayedAck env c => exact path_checkDelayedAck env c
  | checkZeroWindowProbe env c => exact path_checkZeroWindowProbe env c
  | countRetransmit c => exact path_countRetransmit c
  | retransmit env c => exact path_retransmit env c

theorem Move.sndUna (h : Move none c c') : c'.tcb.sndUna = c.tcb.sndUna := by
  cases h with
  | advance env c seg hx => cases hx
  | _ => first | rfl | simp only [rawSend_tcb, sendZeroWindowProbe_tcb, drainStep, buffer_tcb,
      setState_tcb, sendSegment_sndUna, log_tcb]

theorem Path.sndUna (h : Path none c c') : c'.tcb.sndUna = c.tcb.sndUna := by
  induction h with
  | refl => rfl
  | tail _ hmove ih => exact hmove.sndUna.trans ih

/-- **What `process_ack` makes of `snd_una`.** -/
theorem processAck_sndUna (env : Env) (c : Conn σ) (ackNum : BitVec 32) (window : UInt16)
    (hs : c.tcb.state ≠ .listen) : (c.processAck env ackNum window).tcb.sndUna =
      if seqGt ackNum c.tcb.sndUna then ackNum else c.tcb.sndUna := by
  unfold processAck
  dsimp only
  generalize hc' : ({ c with tcb := { c.tcb with sndWnd := window.toNat } } : Conn σ) = c'
  obtain ⟨cc, sampling, dup, htcb⟩ := checkDupAck_tcb c' ackNum
  have huna : (c'.checkDupAck ackNum).tcb.sndUna = c.tcb.sndUna := by rw [htcb, ← hc']
  have hstate : (c'.checkDupAck ackNum).tcb.state ≠ .listen := by
    rw [htcb, ← hc']
    exact hs
  rw [huna]
  cases seqGt ackNum c.tcb.sndUna with
  | false =>
    simp only [Bool.not_false, if_true, Bool.false_eq_true, if_false]
    split
    · exact (path_sendBufferedData env _ hstate).sndUna.trans huna
    · exact huna
  | true =>
    simp only [Bool.not_true, Bool.false_eq_true, if_false, if_true]
    exact (path_sample env _).sndUna.trans
      (path_sendBufferedData env ((c'.checkDupAck ackNum).advance env ackNum) hstate).sndUna

/-- Only the ACK part of an active connection's handler moves `snd_una`. -/
theorem ConnStep.sndUna (h : ConnStep x c c') (hs : c.tcb.state.isActive = false) :
    c'.tcb.sndUna = c.tcb.sndUna := by
  cases h with
  | send env c data => exact (path_send env c data).sndUna
  | finish env c hcan =>
    rw [TCPState.isActive_of_canSend hcan] at hs
    cases hs
  | processAck env c seg hx hack hact =>
    rw [hact] at hs
    cases hs
  | ack env c => exact sendSegment_sndUna env _ _ c
  | acknowledgeData env c hact =>
    rw [hact] at hs
    cases hs
  | updateRcvWnd c => rfl
  | checkDelayedAck env c => exact (path_checkDelayedAck env c).sndUna
  | checkZeroWindowProbe env c => exact (path_checkZeroWindowProbe env c).sndUna
  | countRetransmit c => exact (path_countRetransmit c).sndUna
  | retransmit env c => exact (path_retransmit env c).sndUna

theorem Path.ptr (h : Path x c c') : c'.ptr = c.ptr := by
  induction h with
  | refl => rfl
  | tail _ hmove ih => exact hmove.ptr.trans ih

theorem Path.identity (h : Path x c c') : c'.tcb.toTCBIdentity = c.tcb.toTCBIdentity := by
  induction h with
  | refl => rfl
  | tail _ hmove ih => exact hmove.identity.trans ih

theorem Path.receive (h : Path x c c') : c'.tcb.toTCBReceive = c.tcb.toTCBReceive := by
  induction h with
  | refl => rfl
  | tail _ hmove ih => exact hmove.receive.trans ih

theorem Path.state (h : Path x c c') : c'.tcb.state = c.tcb.state ∨
    (c.tcb.state.canSend = true ∧ c'.tcb.state = c.tcb.state.afterFin) := by
  induction h with
  | refl => exact Or.inl rfl
  | tail _ hmove ih =>
    rcases hmove.state with hstate | ⟨hcan, hstate⟩
    · rw [hstate]
      exact ih
    · rcases ih with ih | ⟨-, ih⟩
      · exact Or.inr ⟨ih ▸ hcan, by rw [hstate, ih]⟩
      · rw [ih, TCPState.canSend_afterFin] at hcan
        cases hcan

theorem Path.grows (h : Path x c c') : c.TraceGrows c' := by
  induction h with
  | refl => exact .refl _
  | tail hpath hmove ih =>
    have hlast := hmove.grows
    rw [Conn.TraceGrows, Path.ptr hpath] at hlast
    exact ih.trans hlast

end Conn

end NeuStack
