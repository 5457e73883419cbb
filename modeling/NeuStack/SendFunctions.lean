import NeuStack.SendSide

/-! # The functions of a connection keep the send side

One lemma for each function that sends, buffers or acknowledges.  What may be in
flight grows only with a FIN; a window's worth of data is all that the data
functions put there.
-/
namespace NeuStack
variable {σ : Type} [ICongestionControl σ]

namespace Conn
variable {ack : Option (BitVec 32)} {B : Nat} {pending : List UInt8} {c : Conn σ}

/-! ## Draining the buffer -/

theorem contents_chunk (c : Conn σ) : ∃ data, data.length = chunk c.tcb ∧
    c.tcb.sendBuffer.peekContiguous.take (chunk c.tcb) = data ∧
    c.tcb.sendBuffer.contents = data ++ c.tcb.sendBuffer.contents.drop (chunk c.tcb) := by
  have hchunk : chunk c.tcb ≤ c.tcb.sendBuffer.peekContiguous.length := by
    unfold chunk
    omega
  have hpeek := c.tcb.sendBuffer.peekContiguous_eq
  have htake : c.tcb.sendBuffer.peekContiguous.take (chunk c.tcb) =
      c.tcb.sendBuffer.contents.take (chunk c.tcb) := by
    rw [hpeek] at hchunk ⊢
    rw [List.length_take] at hchunk
    rw [List.take_take, Nat.min_eq_left (by omega)]
  refine ⟨_, ?_, rfl, ?_⟩
  · rw [List.length_take, Nat.min_eq_left hchunk]
  · rw [htake, List.take_append_drop]

theorem Sound.drainStep (h : c.Sound ack B c.tcb.sendBuffer.contents) (hB : 65535 ≤ B)
    (hB' : B < 2 ^ 31) (env : Env) :
    (c.drainStep env).Sound ack B (c.drainStep env).tcb.sendBuffer.contents := by
  obtain ⟨data, hlen, hdata, hcontents⟩ := contents_chunk c
  obtain ⟨a, hlaid⟩ := h.laid
  obtain ⟨-, hflight⟩ := hlaid.inFlight hB' h.sndNxt
  have hmss := h.mss
  have hwnd := h.window
  -- the chunk fits the window, if it is not empty
  have hroom : c.tcb.inFlight + data.length ≤ B := by
    rw [hlen]
    simp only [chunk, TCB.availableWindow, TCB.effectiveWindow]
    omega
  have hsmall : data.length ≤ tcpMssMax := by
    rw [hlen]
    refine Nat.le_trans ?_ hmss.2
    unfold chunk
    omega
  rw [hcontents] at h
  have hsent := h.transmit env hB' hsmall hroom
  unfold Conn.drainStep
  dsimp only
  rw [hdata]
  have hrest : ((c.sendSegment env (TCPFlags.ack ||| TCPFlags.psh) data).tcb.sendBuffer.consume
      (chunk c.tcb)).2.contents = c.tcb.sendBuffer.contents.drop (chunk c.tcb) := by
    rw [sendSegment_sendBuffer, StreamBuffer.contents_consume]
  rw [hrest]
  exact hsent.congr rfl rfl rfl rfl rfl rfl rfl rfl

theorem Sound.drain (h : c.Sound ack B c.tcb.sendBuffer.contents) (hB : 65535 ≤ B)
    (hB' : B < 2 ^ 31) (env : Env) (fuel : Nat) :
    (c.drain env fuel).Sound ack B (c.drain env fuel).tcb.sendBuffer.contents :=
  drain_induction (motive := fun c' => c'.Sound ack B c'.tcb.sendBuffer.contents) env
    (fun _ h => h.drainStep hB hB' env) fuel h

omit [ICongestionControl σ] in
theorem Sound.updateRcvWnd (h : c.Sound ack B pending) : c.updateRcvWnd.Sound ack B pending :=
  h.congr rfl rfl rfl rfl rfl rfl rfl rfl

/-- What sending makes of a connection in state `s`: as a rule the state stays; or the FIN
that had to wait for the buffer goes out too, and takes one more number. -/
inductive Sent (ack : Option (BitVec 32)) (B : Nat) (s : TCPState) (c' : Conn σ) : Prop
  | same (hstate : c'.tcb.state = s) (h : c'.Sound ack B c'.tcb.sendBuffer.contents)
  | fin (hcan : s.canSend = true) (hstate : c'.tcb.state = s.afterFin)
      (hbuf : c'.tcb.sendBuffer.contents = []) (h : c'.Sound ack (B + 1) [])

omit [ICongestionControl σ] in
theorem Sound.completeClose (h : c.Sound ack B c.tcb.sendBuffer.contents) (hB : B + 1 < 2 ^ 31)
    (env : Env) : Sent ack B c.tcb.state (c.completeClose env) := by
  unfold Conn.completeClose
  split
  · rename_i hdone
    rw [Bool.and_eq_true, StreamBuffer.empty_iff] at hdone
    have hopen : Sound ack B [] { c with tcb := { c.tcb with closePending := false } } := by
      rw [hdone.1] at h
      exact h.congr rfl rfl rfl rfl rfl rfl rfl rfl
    dsimp only
    split
    · rename_i hcan
      refine .fin hcan rfl ?_ ((hopen.sendFin env hB).setState c.tcb.state.afterFin)
      rw [setState_tcb, sendSegment_sendBuffer]
      exact hdone.1
    · refine .same rfl ?_
      rw [hdone.1]
      exact hopen
  · exact .same rfl h

/-- **`send_buffered_data`.** -/
theorem Sound.sendBufferedData (h : c.Sound ack B c.tcb.sendBuffer.contents) (hB : 65535 ≤ B)
    (hB' : B + 1 < 2 ^ 31) (env : Env) : Sent ack B c.tcb.state (c.sendBufferedData env) := by
  have hdrained : ((c.drain env c.tcb.sendBuffer.size).updateRcvWnd).Sound ack B
      ((c.drain env c.tcb.sendBuffer.size).updateRcvWnd).tcb.sendBuffer.contents :=
    (h.drain hB (by omega) env _).updateRcvWnd
  have hstate : ((c.drain env c.tcb.sendBuffer.size).updateRcvWnd).tcb.state = c.tcb.state :=
    drain_state env c _
  rw [← hstate]
  exact hdrained.completeClose hB' env

/-- With an empty buffer and no FIN to send, it updates the receive window at most. -/
theorem sendBufferedData_idle (env : Env) (hbuf : c.tcb.sendBuffer.contents = [])
    (hcan : c.tcb.state.canSend = false) : ∃ rcvWnd closePending, c.sendBufferedData env =
      { c with tcb := { c.tcb with rcvWnd := rcvWnd, closePending := closePending } } := by
  have hempty : c.tcb.sendBuffer.empty = true := c.tcb.sendBuffer.empty_iff.mpr hbuf
  have hsize : c.tcb.sendBuffer.size = 0 := by
    rw [← StreamBuffer.length_contents, hbuf, List.length_nil]
  unfold Conn.sendBufferedData
  rw [hsize, Conn.drain]
  unfold Conn.completeClose
  rw [updateRcvWnd_tcb]
  dsimp only
  rw [hempty, hcan, Bool.true_and]
  split
  · exact ⟨_, _, rfl⟩
  · exact ⟨_, _, rfl⟩

/-! ## Sending and closing -/

omit [ICongestionControl σ] in
/-- The bytes that wait come to rest in the buffer. -/
theorem Sound.buffer {data : List UInt8} (h : c.Sound ack B (c.tcb.sendBuffer.contents ++ data))
    (hfit : data.length ≤ c.tcb.sendBuffer.available) :
    (c.buffer data).Sound ack B (c.buffer data).tcb.sendBuffer.contents := by
  rw [buffer_tcb, StreamBuffer.contents_write, List.take_of_length_le hfit]
  exact h.congr rfl rfl rfl rfl rfl rfl rfl rfl

/-- **`send()`**, in a state that may send. -/
theorem Sound.send (h : c.Sound ack B c.tcb.sendBuffer.contents) (hB : 65535 ≤ B)
    (hB' : B + 1 < 2 ^ 31) (env : Env) (data : List UInt8) :
    Sent ack B c.tcb.state (c.send env data).2 := by
  have hsame : Sent ack B c.tcb.state c := .same rfl h
  unfold Conn.send
  split
  · exact hsame
  split
  · exact hsame
  split
  · exact hsame
  dsimp only
  generalize hacc : min data.length c.tcb.sendBuffer.available = accepted
  have hlen : (data.take accepted).length = accepted := by
    rw [List.length_take]
    omega
  have hfit : (data.take accepted).length ≤ c.tcb.sendBuffer.available := by omega
  generalize data.take accepted = taken at hlen hfit
  have haccept := h.accept taken
  have hbuffer := Sound.buffer (c := c.log (.accepted c.ptr taken)) haccept hfit
  have hbuffered : Sent ack B c.tcb.state ((c.log (.accepted c.ptr taken)).buffer taken) :=
    .same rfl hbuffer
  split
  · exact hbuffered
  rename_i hbuf
  split
  · exact hbuffered
  split
  · exact hbuffered
  rename_i hav
  have hbuf : c.tcb.sendBuffer.contents = [] := by
    rw [← StreamBuffer.empty_iff]
    simpa using hbuf
  generalize hn : min (min accepted (c.log (.accepted c.ptr taken)).tcb.availableWindow)
    (c.log (.accepted c.ptr taken)).tcb.options.mss.toNat = n
  -- the first `n` bytes go out
  have htransmit : ((c.log (.accepted c.ptr taken)).sendSegment env
      (TCPFlags.ack ||| TCPFlags.psh) (taken.take n)).Sound ack B (taken.drop n) := by
    have hmss := h.mss
    have hwnd := h.window
    obtain ⟨a, hlaid⟩ := h.laid
    obtain ⟨-, hflight⟩ := hlaid.inFlight (by omega) h.sndNxt
    have hsplit : (c.log (.accepted c.ptr taken)).Sound ack B (taken.take n ++ taken.drop n) := by
      rw [hbuf, List.nil_append] at haccept
      rw [List.take_append_drop]
      exact haccept
    have hntake : (taken.take n).length = n := by
      rw [List.length_take]
      omega
    refine hsplit.transmit env (by omega) ?_ ?_
    · rw [hntake, ← hn, log_tcb]
      exact Nat.le_trans (Nat.min_le_right ..) hmss.2
    · show c.tcb.inFlight + (taken.take n).length ≤ B
      rw [hntake, ← hn, log_tcb]
      simp only [TCB.availableWindow, TCB.effectiveWindow] at hav ⊢
      omega
  have hstate₁ : ((c.log (.accepted c.ptr taken)).sendSegment env
      (TCPFlags.ack ||| TCPFlags.psh) (taken.take n)).tcb.state = c.tcb.state :=
    sendSegment_state ..
  have hbuf₁ : ((c.log (.accepted c.ptr taken)).sendSegment env
      (TCPFlags.ack ||| TCPFlags.psh) (taken.take n)).tcb.sendBuffer = c.tcb.sendBuffer :=
    sendSegment_sendBuffer ..
  generalize (c.log (.accepted c.ptr taken)).sendSegment env (TCPFlags.ack ||| TCPFlags.psh)
    (taken.take n) = c₁ at htransmit hstate₁ hbuf₁
  -- and the rest into the buffer
  have hrest : (if n < accepted then c₁.buffer (taken.drop n) else c₁).Sound ack B
      (if n < accepted then c₁.buffer (taken.drop n) else c₁).tcb.sendBuffer.contents ∧
      (if n < accepted then c₁.buffer (taken.drop n) else c₁).tcb.state = c.tcb.state := by
    split
    · refine ⟨Sound.buffer ?_ ?_, hstate₁⟩
      · rw [hbuf₁, hbuf]
        exact htransmit
      · rw [hbuf₁, List.length_drop]
        omega
    · refine ⟨?_, hstate₁⟩
      rw [hbuf₁, hbuf]
      rwa [List.drop_eq_nil_of_le (by omega)] at htransmit
  generalize (if n < accepted then c₁.buffer (taken.drop n) else c₁) = c₂ at hrest
  obtain ⟨hsound, hstate⟩ := hrest
  split
  · rw [← hstate]
    exact hsound.sendBufferedData hB hB' env
  · exact .same hstate hsound

/-- **`close()`**, in a state that may send: its own FIN, and one that had to wait. -/
theorem Sound.finish (h : c.Sound ack B c.tcb.sendBuffer.contents) (hB : 65535 ≤ B)
    (hB' : B + 2 < 2 ^ 31) (env : Env) :
    ((c.finish env).tcb.state = c.tcb.state ∧
        (c.finish env).Sound ack B (c.finish env).tcb.sendBuffer.contents) ∨
      ((c.finish env).tcb.state = c.tcb.state.afterFin ∧
        (c.finish env).tcb.sendBuffer.contents = [] ∧ (c.finish env).Sound ack (B + 2) []) := by
  have hdrained := h.sendBufferedData hB (by omega) env
  unfold Conn.finish
  dsimp only
  split
  · rename_i hbuf
    have hbuf : (c.sendBufferedData env).tcb.sendBuffer.empty ≠ true := by simpa using hbuf
    rcases hdrained with ⟨hstate, hsound⟩ | ⟨-, -, hempty, -⟩
    · exact Or.inl ⟨hstate, hsound.congr rfl rfl rfl rfl rfl rfl rfl rfl⟩
    · exact absurd (StreamBuffer.empty_iff _ |>.mpr hempty) hbuf
  · rename_i hbuf
    have hbuf : (c.sendBufferedData env).tcb.sendBuffer.contents = [] := by
      rw [← StreamBuffer.empty_iff]
      simpa using hbuf
    have hsound : (c.sendBufferedData env).Sound ack (B + 1) [] := by
      rcases hdrained with ⟨-, hsound⟩ | ⟨-, -, -, hsound⟩
      · rw [hbuf] at hsound
        exact hsound.mono (Nat.le_succ B)
      · exact hsound
    have hsilent : (Event.finishing (c.sendBufferedData env).ptr c.tcb.state
        (c.sendBufferedData env).tcb.state).Silent (c.sendBufferedData env).ptr :=
      ⟨rfl, rfl, nofun⟩
    have hfinishing := hsound.silent hsilent
    refine Or.inr ⟨rfl, ?_, (hfinishing.sendFin env hB').setState c.tcb.state.afterFin⟩
    rw [setState_tcb, sendSegment_sendBuffer]
    exact hbuf

/-! ## Acknowledging -/

omit [ICongestionControl σ] in
theorem Sound.acknowledgeData (h : c.Sound ack B pending) (env : Env) :
    (c.acknowledgeData env).Sound ack B pending := by
  unfold Conn.acknowledgeData
  split
  · split
    · exact h.congr rfl rfl rfl rfl rfl rfl rfl rfl
    · exact (h.bareAck env).congr rfl rfl rfl rfl rfl rfl rfl rfl
  · exact h.bareAck env

omit [ICongestionControl σ] in
theorem Sound.checkDelayedAck (h : c.Sound ack B pending) (env : Env) :
    (c.checkDelayedAck env).Sound ack B pending := by
  unfold Conn.checkDelayedAck
  split
  · exact (h.bareAck env).congr rfl rfl rfl rfl rfl rfl rfl rfl
  · exact h

omit [ICongestionControl σ] in
theorem Sound.checkZeroWindowProbe (h : c.Sound ack B c.tcb.sendBuffer.contents) (env : Env) :
    (c.checkZeroWindowProbe env).Sound ack B c.tcb.sendBuffer.contents := by
  unfold Conn.checkZeroWindowProbe
  split
  · split
    · exact h.congr rfl rfl rfl rfl rfl rfl rfl rfl
    · split
      · exact h.probe.congr rfl rfl rfl rfl rfl rfl rfl rfl
      · exact h
  · exact h.congr rfl rfl rfl rfl rfl rfl rfl rfl

omit [ICongestionControl σ] in
/-- The bytes of the head again, as many as the MSS allows. -/
theorem Sound.resendData {e : RetransmitEntry} {q : List RetransmitEntry} {flags : UInt8}
    (h : c.Sound ack B pending) (hB : B < 2 ^ 31) (hq : c.tcb.retransmitQueue = e :: q)
    (hflags : TCPFlags.Plain flags) (hdata : 0 < e.data.length) (n : Nat) :
    (c.rawSend flags e.seqStart (e.data.take n)).Sound ack B pending := by
  refine h.resend hB hq _ _ ?_
  rw [TCPSegment.slots_plain hflags, RetransmitEntry.slots,
    if_neg (List.length_pos_iff_ne_nil.mp hdata)]
  show (e.data.take n).map some <+: _
  rw [List.map_take]
  exact List.take_prefix ..

theorem Sound.checkDupAck (h : c.Sound ack B pending) (hB : B < 2 ^ 31) (ackNum : BitVec 32) :
    (c.checkDupAck ackNum).Sound ack B pending := by
  unfold Conn.checkDupAck
  split
  · exact h
  rename_i entry rest hq
  split
  · exact h
  split
  · exact h.congr rfl rfl rfl rfl rfl rfl rfl rfl
  split
  · have hloss : Sound ack B pending { c with tcb := { c.tcb with
        packetsLostPeriod := c.tcb.packetsLostPeriod + 1
        congestionControl := c.tcb.congestionControl.map (·.onLoss 0)
        dupAckCount := 0 } } := h.congr rfl rfl rfl rfl rfl rfl rfl rfl
    dsimp only
    split
    · rename_i hdata
      exact hloss.resendData hB hq TCPFlags.plain_ack hdata _
    · exact hloss
  · exact h.congr rfl rfl rfl rfl rfl rfl rfl rfl

omit [ICongestionControl σ] in
theorem Sound.setWindow (h : c.Sound ack B pending) (window : UInt16) :
    Sound ack B pending { c with tcb := { c.tcb with sndWnd := window.toNat } } := by
  obtain ⟨hwire, hmss, -, hnxt, ⟨a, hroom, hin, huna, htiles, hdrop, hused⟩, hsmall⟩ := h
  have hwnd := window.toNat_lt
  exact ⟨hwire, hmss, by show window.toNat ≤ 65535; omega, hnxt,
    ⟨a, hroom, hin, huna, htiles, hdrop, hused⟩, hsmall⟩

theorem Sound.sample (h : c.Sound ack B pending) (env : Env) :
    (c.sample env).Sound ack B pending := by
  unfold Conn.sample
  dsimp only
  split
  · refine Sound.congr (h.silent ?_) rfl rfl rfl rfl rfl rfl rfl rfl
    exact ⟨rfl, rfl, nofun⟩
  · exact h

theorem sample_tcb (env : Env) (c : Conn σ) : ∃ sampling,
    (c.sample env).tcb = { c.tcb with toTCBSampling := sampling } := by
  unfold Conn.sample
  dsimp only
  split
  · exact ⟨_, rfl⟩
  · exact ⟨_, rfl⟩

/-- **`process_ack`**, of the acknowledgement that may be processed. -/
theorem Sound.processAck {x : BitVec 32} (h : c.Sound (some x) B c.tcb.sendBuffer.contents)
    (hB : 65535 ≤ B) (hB' : B + 1 < 2 ^ 31) (env : Env) (window : UInt16) :
    Sent (some x) B c.tcb.state (c.processAck env x window) := by
  unfold Conn.processAck
  dsimp only
  have hchecked := (h.setWindow window).checkDupAck (by omega) x
  obtain ⟨cc, sampling, dup, htcb⟩ :=
    checkDupAck_tcb ({ c with tcb := { c.tcb with sndWnd := window.toNat } } : Conn σ) x
  have hstate : (Conn.checkDupAck x { c with tcb := { c.tcb with
      sndWnd := window.toNat } }).tcb.state = c.tcb.state := by rw [htcb]
  have hbuf : (Conn.checkDupAck x { c with tcb := { c.tcb with
      sndWnd := window.toNat } }).tcb.sendBuffer = c.tcb.sendBuffer := by rw [htcb]
  generalize Conn.checkDupAck x { c with tcb := { c.tcb with sndWnd := window.toNat } } = c₁
    at hchecked hstate hbuf
  rw [← hbuf] at hchecked
  rw [← hstate]
  split
  · split
    · exact hchecked.sendBufferedData hB hB' env
    · exact .same rfl hchecked
  · rename_i hgt
    have hadvanced := hchecked.advance (by omega) env (by simpa using hgt)
    have hsent := Sound.sendBufferedData (c := c₁.advance env x) hadvanced hB hB' env
    obtain ⟨sampling', htcb'⟩ := sample_tcb env ((c₁.advance env x).sendBufferedData env)
    rcases hsent with ⟨hstate, hsound⟩ | ⟨hcan, hstate, hempty, hsound⟩
    · refine .same (by rw [htcb']; exact hstate) ?_
      rw [htcb']
      exact hsound.sample env
    · exact .fin hcan (by rw [htcb']; exact hstate) (by rw [htcb']; exact hempty)
        (hsound.sample env)

/-! ## Retransmitting -/

omit [ICongestionControl σ] in
theorem Sound.countRetransmit (h : c.Sound ack B pending) :
    c.countRetransmit.Sound ack B pending := by
  unfold Conn.countRetransmit
  split
  · exact h
  rename_i entry rest hq
  refine h.requeue rfl rfl rfl rfl rfl rfl rfl (by rw [hq]; rfl) fun e he => ?_
  rcases List.mem_cons.mp he with rfl | he
  · exact h.small entry (by rw [hq]; exact List.mem_cons_self ..)
  · exact h.small e (by rw [hq]; exact List.mem_cons_of_mem _ he)

omit [ICongestionControl σ] in
/-- What is sent again for an entry without data takes one number, as the entry does. -/
theorem slots_retransmitFlags {s : TCPState} (h : retransmitFlags s ≠ 0) (t : TCB σ)
    (seq : BitVec 32) : (t.segment (retransmitFlags s) seq []).slots = [none] := by
  have hflags : ∀ flags : UInt8, TCPFlags.has flags TCPFlags.syn != TCPFlags.has flags TCPFlags.fin →
      (t.segment flags seq []).slots = [none] := by
    intro flags hone
    have hsyn : (t.segment flags seq []).isSyn = TCPFlags.has flags TCPFlags.syn := rfl
    have hfin : (t.segment flags seq []).isFin = TCPFlags.has flags TCPFlags.fin := rfl
    have hdata : (t.segment flags seq []).data = [] := rfl
    rw [TCPSegment.slots, hsyn, hfin, hdata]
    generalize TCPFlags.has flags TCPFlags.syn = syn at hone
    generalize TCPFlags.has flags TCPFlags.fin = fin at hone
    cases syn <;> cases fin <;> first | rfl | cases hone
  refine hflags _ ?_
  cases s <;> first | decide | exact absurd rfl h

omit [ICongestionControl σ] in
theorem Sound.retransmit (h : c.Sound ack B pending) (hB : B < 2 ^ 31) (env : Env) :
    (c.retransmit env).Sound ack B pending := by
  unfold Conn.retransmit
  split
  · exact h
  rename_i entry rest hq
  dsimp only
  generalize (min (c.tcb.rtoUs * 2) 60000000 : UInt32) = rtoUs
  have hbackoff : Sound ack B pending { c with tcb := { c.tcb with
      packetsLostPeriod := c.tcb.packetsLostPeriod + 1
      rtoUs := rtoUs
      rttMeasuring := false
      retransmitQueue := { entry with timeout := env.now + rtoUs.toNat } :: rest } } := by
    refine h.requeue rfl rfl rfl rfl rfl rfl rfl (by rw [hq]; rfl) fun e he => ?_
    rcases List.mem_cons.mp he with rfl | he
    · exact h.small entry (by rw [hq]; exact List.mem_cons_self ..)
    · exact h.small e (by rw [hq]; exact List.mem_cons_of_mem _ he)
  split
  · rename_i hdata
    exact hbackoff.resendData (e := { entry with timeout := env.now + rtoUs.toNat }) hB rfl
      TCPFlags.plain_push hdata _
  · rename_i hdata
    have hnil : entry.data = [] := by
      rw [← List.length_eq_zero_iff]
      omega
    split
    · rename_i hflags
      refine hbackoff.resend (e := { entry with timeout := env.now + rtoUs.toNat }) hB rfl _ _ ?_
      rw [slots_retransmitFlags hflags]
      exact ⟨[], (if_pos hnil).symm⟩
    · exact hbackoff

end Conn

end NeuStack
