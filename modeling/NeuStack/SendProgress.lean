import NeuStack.UnacceptableAcks
import NeuStack.SendTiling

/-! # The send side does not stall

Bytes in the send buffer wait for something that will happen: for an acknowledgement of
what is in flight, which the retransmission timer sees to, or for the peer's window to open,
which the zero-window probe asks for (`TCB.Flows`).  What keeps it so is the end of the loop of
`send_buffered_data`: nothing is left, or the window is full (`drain_done`); an open congestion
window (`KeepsWindowOpen`) is then not what closes it.
-/
namespace NeuStack
variable {σ : Type} [ICongestionControl σ] [KeepsWindowOpen σ]

/-! ## The congestion window -/

/-- The controller of a connection, if it has one, keeps its window open. -/
def TCB.OpenControl (t : TCB σ) : Prop :=
  ∀ cc, t.congestionControl = some cc → ∃ c, cc = .other c ∧ KeepsWindowOpen.Ok c

namespace TCB.OpenControl
variable {t u : TCB σ}

theorem congr (h : t.OpenControl) (hcc : u.congestionControl = t.congestionControl) :
    u.OpenControl := fun cc hc => h cc (hcc.symm.trans hc)

theorem map (h : t.OpenControl) {f : CongestionControl σ → CongestionControl σ}
    (hcc : u.congestionControl = t.congestionControl.map f)
    (hf : ∀ c, KeepsWindowOpen.Ok c → ∃ c', f (.other c) = .other c' ∧ KeepsWindowOpen.Ok c') :
    u.OpenControl := by
  intro cc hc
  rw [hcc, Option.map_eq_some_iff] at hc
  obtain ⟨old, hold, rfl⟩ := hc
  obtain ⟨c, rfl, hok⟩ := h old hold
  exact hf c hok

/-- With such a controller, only the peer closes the window. -/
theorem sndWnd_of_closed (h : t.OpenControl) (hclosed : t.effectiveWindow = 0) : t.sndWnd = 0 := by
  rw [TCB.effectiveWindow] at hclosed
  cases hcc : t.congestionControl with
  | none =>
    rw [hcc] at hclosed
    dsimp only at hclosed
    omega
  | some cc =>
    obtain ⟨c, rfl, hok⟩ := h cc hcc
    have hpos : 0 < (CongestionControl.other c).cwnd.toNat := KeepsWindowOpen.cwnd_pos c hok
    rw [hcc] at hclosed
    dsimp only at hclosed
    omega

end TCB.OpenControl

theorem Conn.Move.openControl {x : Option TCPSegment} {c c' : Conn σ} (h : Move x c c')
    (hc : c.tcb.OpenControl) : c'.tcb.OpenControl := by
  cases h with
  | loss c => exact hc.map rfl fun d hd => ⟨_, rfl, KeepsWindowOpen.onLoss_ok d 0 hd⟩
  | reno c f hf =>
    refine hc.map rfl fun d hd => ⟨d, ?_, hd⟩
    rcases hf with rfl | rfl <;> rfl
  | advance env c seg hx hack hgt =>
    refine hc.map rfl fun d hd => ⟨_, rfl, KeepsWindowOpen.onAck_ok d _ _ _ hd ?_⟩
    rw [seqGt_iff] at hgt
    rw [UInt32.toNat_ofNat_of_lt' (Nat.lt_trans hgt.2 (by decide))]
    exact hgt.2
  | ack | delayedAck | drain | transmitData | deferredFin | finish =>
    refine hc.congr ?_
    simp only [drainStep, setState_tcb, buffer_tcb, sendSegment_congestionControl, log_tcb]
  | resend | resendBare | probe =>
    refine hc.congr ?_
    simp only [rawSend_tcb, sendZeroWindowProbe_tcb]
  | _ => exact hc.congr rfl

theorem Conn.Path.openControl {x : Option TCPSegment} {c c' : Conn σ} (h : Path x c c')
    (hc : c.tcb.OpenControl) : c'.tcb.OpenControl := by
  induction h with
  | refl => exact hc
  | tail _ hmove ih => exact hmove.openControl ih

/-! ## What waits in the buffer -/

/-- **The send side flows**: if bytes wait, something is in flight or the peer's window is closed.
None wait before the SYN is answered. -/
structure TCB.Flows (t : TCB σ) : Prop where
  control : t.OpenControl
  unsent : t.state = .synSent → t.sendBuffer.empty = true
  waits : t.sendBuffer.empty = false → 0 < t.inFlight ∨ t.sndWnd = 0

namespace TCB.Flows
variable {t u : TCB σ}

/-- With nothing in the buffer. -/
theorem of_empty (hcc : t.OpenControl) (hbuf : t.sendBuffer.empty = true) : t.Flows :=
  ⟨hcc, fun _ => hbuf, fun hne => absurd (hbuf.symm.trans hne) nofun⟩

theorem congr (h : t.Flows) (hnumbers : u.sendNumbers = t.sendNumbers)
    (hbuf : u.sendBuffer = t.sendBuffer) (hcc : u.congestionControl = t.congestionControl) :
    u.Flows := by
  obtain ⟨hstate, hnumbers⟩ := Prod.mk.inj hnumbers
  obtain ⟨-, hnumbers⟩ := Prod.mk.inj hnumbers
  obtain ⟨huna, hnumbers⟩ := Prod.mk.inj hnumbers
  obtain ⟨hnxt, hwnd⟩ := Prod.mk.inj hnumbers
  refine ⟨h.control.congr hcc, ?_, ?_⟩
  · rw [hstate, hbuf]
    exact h.unsent
  · rw [hbuf, TCB.inFlight, hnxt, huna, hwnd]
    exact h.waits

/-- The window is full. -/
theorem of_full (hcc : t.OpenControl) (hs : t.state ≠ .synSent) (hfull : t.availableWindow = 0) :
    t.Flows := by
  refine ⟨hcc, fun h => absurd h hs, fun _ => ?_⟩
  rw [TCB.availableWindow] at hfull
  rcases Nat.eq_zero_or_pos t.inFlight with hnone | hpos
  · right
    apply hcc.sndWnd_of_closed
    omega
  · exact Or.inl hpos

end TCB.Flows

namespace Conn
variable {c c' : Conn σ}

/-- **Behind `send_buffered_data`**, whatever was in flight before. -/
theorem flows_sendBufferedData (env : Env) (hmss : 0 < c.tcb.options.mss)
    (hcc : c.tcb.OpenControl) (hs : c.tcb.state = .synSent → c.tcb.sendBuffer.empty = true) :
    (c.sendBufferedData env).tcb.Flows := by
  have hdrained : (c.drain env c.tcb.sendBuffer.size).tcb.Flows := by
    have hcontrol := (path_drain (x := none) env c c.tcb.sendBuffer.size).openControl hcc
    rcases drain_done env hmss with hbuf | hfull
    · exact .of_empty hcontrol hbuf
    · by_cases hsent : c.tcb.state = .synSent
      · rw [drain_of_done env (Or.inl (hs hsent))]
        exact .of_empty hcc (hs hsent)
      · refine .of_full hcontrol ?_ hfull
        rwa [drain_state]
  rw [sendBufferedData, completeClose]
  have hupdated := hdrained.congr (u := (c.drain env c.tcb.sendBuffer.size).updateRcvWnd.tcb)
    rfl rfl rfl
  generalize (c.drain env c.tcb.sendBuffer.size).updateRcvWnd = d at hupdated
  split
  · rename_i hclose
    rw [Bool.and_eq_true] at hclose
    dsimp only
    split
    · refine .of_empty ?_ ?_
      · refine hupdated.control.congr ?_
        rw [setState_tcb, sendSegment_congestionControl]
      · rw [setState_tcb, sendSegment_sendBuffer]
        exact hclose.1
    · exact hupdated.congr rfl rfl rfl
  · exact hupdated

theorem flows_send (env : Env) (data : List UInt8) (hmss : 0 < c.tcb.options.mss)
    (h : c.tcb.Flows) : (c.send env data).2.tcb.Flows := by
  rw [send]
  split
  · exact h
  rename_i hcan
  have hs : c.tcb.state ≠ .synSent := ne_synSent_of_canSend (by simpa using hcan)
  split
  · exact h
  split
  · exact h
  dsimp only
  generalize min data.length c.tcb.sendBuffer.available = accepted
  split
  · -- behind bytes that wait already
    rename_i hbuf
    have hbuf : c.tcb.sendBuffer.empty = false := by simpa using hbuf
    exact ⟨h.control.congr rfl, fun hsent => absurd hsent hs, fun _ => h.waits hbuf⟩
  split
  · -- Nagle's algorithm: something is in flight
    rename_i hnagle
    rw [Bool.and_eq_true, Bool.and_eq_true, bne_iff_ne] at hnagle
    refine ⟨h.control.congr rfl, fun hsent => absurd hsent hs, fun _ => Or.inl ?_⟩
    have hne : c.tcb.sndNxt ≠ c.tcb.sndUna := hnagle.1.2
    show 0 < (c.tcb.sndNxt - c.tcb.sndUna).toNat
    bv_omega
  split
  · rename_i hfull
    exact .of_full (h.control.congr rfl) hs hfull
  generalize min (min accepted _) _ = n
  have hcc := h.control.congr (u := ((c.log (.accepted c.ptr (data.take accepted))).sendSegment
    env (TCPFlags.ack ||| TCPFlags.psh) ((data.take accepted).take n)).tcb)
    (sendSegment_congestionControl ..)
  have hstate := sendSegment_state env (TCPFlags.ack ||| TCPFlags.psh) ((data.take accepted).take n)
    (c.log (.accepted c.ptr (data.take accepted)))
  have hoptions := congrArg TCBIdentity.options (sendSegment_identity env
    (TCPFlags.ack ||| TCPFlags.psh) ((data.take accepted).take n)
    (c.log (.accepted c.ptr (data.take accepted))))
  generalize (c.log (.accepted c.ptr (data.take accepted))).sendSegment env
    (TCPFlags.ack ||| TCPFlags.psh) ((data.take accepted).take n) = c₁ at hcc hstate hoptions ⊢
  have hrest : (if n < accepted then c₁.buffer ((data.take accepted).drop n) else c₁).tcb.OpenControl
      ∧ (if n < accepted then c₁.buffer ((data.take accepted).drop n) else c₁).tcb.state =
        c.tcb.state ∧
      (if n < accepted then c₁.buffer ((data.take accepted).drop n) else c₁).tcb.options =
        c.tcb.options := by
    split
    · exact ⟨hcc.congr rfl, hstate, hoptions⟩
    · exact ⟨hcc, hstate, hoptions⟩
  generalize (if n < accepted then c₁.buffer ((data.take accepted).drop n) else c₁) = c₂ at hrest ⊢
  obtain ⟨hcc, hstate, hoptions⟩ := hrest
  dsimp only
  split
  · refine flows_sendBufferedData env ?_ hcc fun hsent => absurd (hstate.symm.trans hsent) hs
    rw [hoptions]
    exact hmss
  · rename_i hbuf
    exact .of_empty hcc (by simpa using hbuf)

theorem flows_finish (env : Env) (hmss : 0 < c.tcb.options.mss) (h : c.tcb.Flows) :
    (c.finish env).tcb.Flows := by
  have hdrained := flows_sendBufferedData env hmss h.control h.unsent
  rw [finish]
  dsimp only
  split
  · exact hdrained.congr rfl rfl rfl
  · rename_i hbuf
    refine .of_empty ?_ ?_
    · refine hdrained.control.congr ?_
      rw [setState_tcb, sendSegment_congestionControl, log_tcb]
    · rw [setState_tcb, sendSegment_sendBuffer, log_tcb]
      simpa using hbuf

theorem flows_sendAck (env : Env) (h : c.tcb.Flows) :
    (c.sendSegment env TCPFlags.ack []).tcb.Flows :=
  h.congr (sendSegment_ack_sendNumbers env c) (sendSegment_sendBuffer ..)
    (sendSegment_congestionControl ..)

/-- A call that is not given a segment. -/
theorem ConnStep.flows (h : ConnStep none c c') (hmss : 0 < c.tcb.options.mss)
    (hc : c.tcb.Flows) : c'.tcb.Flows := by
  have hcc := h.path.openControl hc.control
  cases h with
  | send env c data => exact flows_send env data hmss hc
  | finish env c => exact flows_finish env hmss hc
  | processAck env c seg hx => cases hx
  | ack env c => exact flows_sendAck env hc
  | acknowledgeData env c =>
    rw [Conn.acknowledgeData]
    split
    · split
      · exact hc.congr rfl rfl rfl
      · exact (flows_sendAck env hc).congr rfl rfl rfl
    · exact flows_sendAck env hc
  | updateRcvWnd c => exact hc.congr rfl rfl rfl
  | checkDelayedAck env c =>
    rw [Conn.checkDelayedAck]
    split
    · exact (flows_sendAck env hc).congr rfl rfl rfl
    · exact hc
  | checkZeroWindowProbe env c =>
    rw [Conn.checkZeroWindowProbe]
    split
    · split
      · exact hc.congr rfl rfl rfl
      · split
        · have hprobe : c.sendZeroWindowProbe.tcb.Flows := by
            rw [sendZeroWindowProbe_tcb]
            exact hc
          exact hprobe.congr rfl rfl rfl
        · exact hc
    · exact hc.congr rfl rfl rfl
  | countRetransmit c =>
    rw [Conn.countRetransmit] at hcc ⊢
    split at hcc
    · exact hc
    · exact ⟨hcc, hc.unsent, hc.waits⟩
  | retransmit env c =>
    rw [Conn.retransmit]
    split
    · exact hc
    · dsimp only
      split
      · rw [rawSend_tcb]
        exact hc.congr rfl rfl rfl
      · split
        · rw [rawSend_tcb]
          exact hc.congr rfl rfl rfl
        · exact hc.congr rfl rfl rfl

/-- **`process_ack`**: either the loop runs, or what was in flight still is. -/
theorem flows_processAck (env : Env) (ackNum : BitVec 32) (window : UInt16)
    (hmss : 0 < c.tcb.options.mss) (h : c.tcb.Flows) :
    (c.processAck env ackNum window).tcb.Flows := by
  rw [processAck]
  dsimp only
  have hcc := (path_checkDupAck (x := none)
    ({ c with tcb := { c.tcb with sndWnd := window.toNat } } : Conn σ) ackNum).openControl
      (h.control.congr rfl)
  obtain ⟨cc, sampling, dup, htcb⟩ :=
    checkDupAck_tcb ({ c with tcb := { c.tcb with sndWnd := window.toNat } } : Conn σ) ackNum
  generalize Conn.checkDupAck ackNum { c with tcb := { c.tcb with sndWnd := window.toNat } } = d
    at hcc htcb
  have hunsent : d.tcb.state = .synSent → d.tcb.sendBuffer.empty = true := by
    rw [htcb]
    exact h.unsent
  have hoptions : d.tcb.options = c.tcb.options := by rw [htcb]
  rw [← hoptions] at hmss
  split
  · split
    · exact flows_sendBufferedData env hmss hcc hunsent
    · rename_i hopens
      refine ⟨hcc, hunsent, fun hbuf => ?_⟩
      have hbuf : c.tcb.sendBuffer.empty = false := by
        rw [htcb] at hbuf
        exact hbuf
      have hwaits : 0 < d.tcb.inFlight ∨ c.tcb.sndWnd = 0 := by
        rw [htcb]
        exact h.waits hbuf
      have hwnd : d.tcb.sndWnd = window.toNat := by rw [htcb]
      rcases hwaits with hpos | hzero
      · exact Or.inl hpos
      · -- the window was closed and is so still
        refine Or.inr ?_
        rw [hwnd, ← Nat.le_zero, ← Nat.not_lt]
        exact fun hpos => hopens ⟨hzero, UInt16.lt_iff_toNat_lt.mpr hpos⟩
  · rename_i hgt
    have hgt : seqGt ackNum d.tcb.sndUna = true := by simpa using hgt
    have hadvanced : (d.advance env ackNum).tcb.OpenControl := by
      refine hcc.map rfl fun e he => ⟨_, rfl, KeepsWindowOpen.onAck_ok e _ _ _ he ?_⟩
      rw [seqGt_iff] at hgt
      rw [UInt32.toNat_ofNat_of_lt' (Nat.lt_trans hgt.2 (by decide))]
      exact hgt.2
    have hdrained := flows_sendBufferedData (c := d.advance env ackNum) env hmss hadvanced hunsent
    obtain ⟨sampling', hsampled⟩ := sample_tcb env ((d.advance env ackNum).sendBufferedData env)
    rw [hsampled]
    exact hdrained.congr rfl rfl rfl

end Conn

/-! ## Between two acknowledgements -/

namespace TCB
variable {t u : TCB σ}

omit [KeepsWindowOpen σ] in
theorem Quiet.options (h : Quiet t u) : u.options = t.options := by
  cases h with
  | conn h => exact congrArg TCBIdentity.options h.path.identity
  | popOoo t =>
    rw [TCPConnectionManager.popOoo]
    split <;> rfl
  | stash t seq data =>
    rw [TCPConnectionManager.addToOooQueue]
    split <;> rfl
  | _ => rfl

theorem Quiet.flows (h : Quiet t u) (hmss : 0 < t.options.mss) (ht : t.Flows) : u.Flows := by
  cases h with
  | conn h => exact h.flows hmss ht
  | popOoo t =>
    rw [TCPConnectionManager.popOoo]
    split
    · exact ht
    · exact ht.congr rfl rfl rfl
  | stash t seq data =>
    rw [TCPConnectionManager.addToOooQueue]
    split
    · exact ht
    · exact ht.congr rfl rfl rfl
  | reopen t seg now hs => exact .of_empty (ht.control.congr rfl) (ht.unsent hs)
  | state t s hs => exact ⟨ht.control.congr rfl, fun hsent => absurd hsent hs.ne_synSent, ht.waits⟩
  | release t => exact .of_empty (ht.control.congr rfl) rfl
  | _ => exact ht.congr rfl rfl rfl

theorem New.flows (h : t.New) (hmss : 0 < t.options.mss) : t.Flows := by
  cases h with
  | listen => exact .of_empty (fun _ hcc => nomatch hcc) rfl
  | connect env m tuple onConnect =>
    refine .of_empty (fun cc hcc => ?_) rfl
    cases hcc
    exact ⟨_, rfl, KeepsWindowOpen.create_ok _ hmss⟩
  | accept env m tuple listener seg =>
    refine .of_empty (fun cc hcc => ?_) rfl
    cases hcc
    exact ⟨_, rfl, KeepsWindowOpen.create_ok _ hmss⟩

end TCB

namespace TCPConnectionManager
variable {p : Ptr} {t : TCB σ}

theorem recorded_flows : Recorded (σ := σ) (fun _ t => 0 < t.options.mss → t.Flows)
    (fun _ => True) where
  nil := trivial
  new t ht hmss := ht.flows hmss
  quiet _ t u hquiet ht hmss := by
    rw [hquiet.options] at hmss
    exact hquiet.flows hmss (ht hmss)
  ack _ t seg env p tr ht _ hmss := by
    have hsame := (Conn.Own.processAck env seg.ackNum seg.window ⟨p, t, tr⟩).options
    rw [hsame] at hmss
    exact Conn.flows_processAck env seg.ackNum seg.window hmss (ht hmss)
  history _ _ _ := trivial

/-- **The send side does not stall.**  Take a run in which no segment for the connection at `p`
acknowledges what was not sent, and a state of it in which the connection may send, with an MSS
that fits.  As long as bytes wait in its send buffer, its retransmission queue holds what the
retransmission timer acts on, or the peer's window is closed, and the zero-window probe acts. -/
theorem never_stalls (localIp : UInt32) (p : Ptr) (xs : List (Input σ))
    (h : GuardedRun.Meets step (AcksInRange p) (init localIp) xs) :
    ∀ ys, ys <+: xs → ∀ t, (GuardedRun.run step (init localIp) ys).heap p = some t → t.MssFits →
      t.sendBuffer.empty = false → t.retransmitQueue ≠ [] ∨ t.sndWnd = 0 := by
  intro ys hys t hp hmss hbuf
  have hflows := (recorded_flows.run localIp p ys).2 t hp (UInt16.lt_iff_toNat_lt.mpr hmss.1)
  obtain ⟨zs, rfl⟩ := hys
  have hside := (SendSide.init p localIp).run (.init localIp) h.of_append.1
  refine (hflows.waits hbuf).imp_left fun hpos hnil => ?_
  cases hside with
  | unborn _ _ _ hnone =>
    rw [hnone] at hp
    cases hp
  | unfit _ _ hunfit => exact hunfit t hp hmss
  | tidy _ iss _ _ htidy =>
    -- an empty queue tiles nothing
    have htiling := tiling_of_tidy (htidy t hp).2
    have hsame := htiling.contiguous
    rw [hnil] at hsame
    have hsame : t.sndUna = t.sndNxt := hsame
    rw [TCB.inFlight, hsame, BitVec.sub_self] at hpos
    exact Nat.lt_irrefl 0 hpos

/-- The peer lets in four of ten bytes, and closes its window when it acknowledges them. -/
def throttled : List (Input (TCPCubic Unit)) :=
  [⟨.silent 0 0, .call (.setDefaultOptions { recvBufferSize := 16, sendBufferSize := 16 })⟩,
    ⟨.silent 0 0, .call (.connect 0x0a000002 80 5000 none)⟩,
    ⟨.silent 1 0, .segment ⟨0x0a000002, 0x0a000001, 80, 5000, 0, 1,
      TCPFlags.syn ||| TCPFlags.ack, 4, []⟩⟩,
    ⟨.silent 2 0, .call (.send 0 [0, 1, 2, 3, 4, 5, 6, 7, 8, 9])⟩,
    ⟨.silent 3 0, .segment ⟨0x0a000002, 0x0a000001, 80, 5000, 1, 5, TCPFlags.ack, 0, []⟩⟩]

/-- The other six wait, with nothing in flight; the window is closed. -/
theorem throttled_waits : ∃ t, (GuardedRun.run step (init 0x0a000001) throttled).heap 0 = some t ∧
    t.retransmitQueue = [] ∧ t.sendBuffer.contents = [4, 5, 6, 7, 8, 9] ∧
    (t.retransmitQueue ≠ [] ∨ t.sndWnd = 0) := by
  have hruns : ((GuardedRun.run step (init 0x0a000001) (throttled.take 4)).heap 0).all
        (fun t => !seqGt (5 : BitVec 32) t.sndNxt) = true ∧
      ((GuardedRun.run step (init 0x0a000001) throttled).heap 0).any (fun t =>
        decide (1 ≤ t.options.mss.toNat ∧ t.options.mss.toNat ≤ tcpMssMax) &&
          !t.sendBuffer.empty && t.retransmitQueue.isEmpty &&
          t.sendBuffer.contents == [4, 5, 6, 7, 8, 9]) = true := by
    decide +kernel
  obtain ⟨htest, hlast⟩ := hruns
  have hacks : GuardedRun.Meets step (AcksInRange 0) (init 0x0a000001) throttled :=
    ⟨acksInRange_of_none rfl, acksInRange_of_none rfl, acksInRange_of_test rfl (by decide +kernel),
      acksInRange_of_none rfl, acksInRange_of_test rfl htest, trivial⟩
  obtain ⟨t, hp, ht⟩ := (Option.any_eq_true ..).mp hlast
  simp only [Bool.and_eq_true, decide_eq_true_eq, Bool.not_eq_true', List.isEmpty_iff,
    beq_iff_eq] at ht
  obtain ⟨⟨⟨hmss, hbuf⟩, hqueue⟩, hcontents⟩ := ht
  exact ⟨t, hp, hqueue, hcontents,
    never_stalls 0x0a000001 0 throttled hacks throttled (List.prefix_refl _) t hp hmss hbuf⟩

end TCPConnectionManager
end NeuStack
