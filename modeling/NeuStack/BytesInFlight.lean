import NeuStack.ManagerPaths

/-! # Bytes in flight

What the stack reports of `snd_nxt - snd_una`: in the samples of `process_ack` and in the
details of `TelemetryAPI::connections`.  Both compare the two as integers before they
subtract, and report 0 where `snd_nxt` has wrapped around and `snd_una` has not.
-/
namespace NeuStack

/-- The difference, unless it looks negative. -/
theorem reported_eq_iff {una nxt v : BitVec 32} (hlt : una < nxt → v = nxt - una)
    (hgt : nxt < una → v = 0) (heq : una = nxt → v = 0) : v = nxt - una ↔ una ≤ nxt := by
  constructor
  · intro hv
    refine BitVec.not_lt.mp fun h => ?_
    have hzero : nxt - una = 0 := by rw [← hv, hgt h]
    rw [BitVec.lt_def] at h
    have hnat := congrArg BitVec.toNat hzero
    have hnone : (0 : BitVec 32).toNat = 0 := rfl
    have hnxt := nxt.isLt
    have huna := una.isLt
    rw [BitVec.toNat_sub, hnone] at hnat
    omega
  · intro hle
    rcases eq_or_ne una nxt with h | h
    · rw [heq h, h]
      exact (BitVec.sub_self nxt).symm
    · refine hlt (BitVec.lt_def.mpr (Nat.lt_of_le_of_ne (BitVec.le_def.mp hle) ?_))
      exact fun heq => h (BitVec.eq_of_toNat_eq heq)

/-! ## The samples -/

/-- Everything that is logged but the samples. -/
def Event.NoSample : Event → Prop
  | .sampled _ _ => False
  | _ => True

namespace Conn
variable {σ : Type} [ICongestionControl σ] (env : Env) (c : Conn σ)

omit [ICongestionControl σ] in
theorem noSample_sendSegment (flags : UInt8) (data : List UInt8) :
    Grows Event.NoSample c.trace (c.sendSegment env flags data).trace := by
  unfold sendSegment
  split
  · exact .refl _
  · exact .single trivial

omit [ICongestionControl σ] in
theorem noSample_setState (s : TCPState) : Grows Event.NoSample c.trace (c.setState s).trace :=
  .single trivial

theorem noSample_checkDupAck (ackNum : BitVec 32) :
    Grows Event.NoSample c.trace (c.checkDupAck ackNum).trace := by
  unfold checkDupAck rawSend
  split
  · exact .refl _
  · split
    · exact .refl _
    · split
      · exact .refl _
      · split
        · dsimp only
          split
          · split
            · exact .refl _
            · exact .single trivial
          · exact .refl _
        · exact .refl _

theorem noSample_drain (fuel : Nat) :
    Grows Event.NoSample c.trace (c.drain env fuel).trace :=
  drain_induction (motive := fun c' => Grows Event.NoSample c.trace c'.trace) env
    (fun c' h => h.trans (noSample_sendSegment env c' _ _)) fuel (.refl _)

theorem noSample_sendBufferedData :
    Grows Event.NoSample c.trace (c.sendBufferedData env).trace := by
  have hdrain := noSample_drain env c c.tcb.sendBuffer.size
  rw [sendBufferedData, completeClose]
  split
  · dsimp only
    split
    · refine Grows.trans ?_ (noSample_setState _ _)
      refine Grows.trans ?_ (noSample_sendSegment env _ _ [])
      exact hdrain
    · exact hdrain
  · exact hdrain

/-- A sample reports the difference, unless it looks negative. -/
theorem sample_cases : (c.sample env).trace = c.trace ∨ ∃ s : TCPSample,
    (c.sample env).trace = c.trace ++ [.sampled c.ptr s] ∧ s.bytesInFlight =
      if c.tcb.sndUna < c.tcb.sndNxt then c.tcb.sndNxt - c.tcb.sndUna else 0 := by
  rw [sample]
  dsimp only
  split
  · exact Or.inr ⟨_, rfl, rfl⟩
  · exact Or.inl rfl

theorem sample_unchanged : (c.sample env).tcb.sndUna = c.tcb.sndUna ∧
    (c.sample env).tcb.sndNxt = c.tcb.sndNxt := by
  rw [sample]
  dsimp only
  split <;> exact ⟨rfl, rfl⟩

/-- The connection when `process_ack` takes its sample. -/
theorem processAck_cases (ackNum : BitVec 32) (window : UInt16) :
    Grows Event.NoSample c.trace (c.processAck env ackNum window).trace ∨
      ∃ c' : Conn σ, Grows Event.NoSample c.trace c'.trace ∧
        c.processAck env ackNum window = c'.sample env := by
  obtain ⟨c₁, hc₁⟩ : ∃ c₁ : Conn σ, c₁ = ({ c with tcb :=
    { c.tcb with sndWnd := window.toNat } } : Conn σ).checkDupAck ackNum := ⟨_, rfl⟩
  have hdup : Grows Event.NoSample c.trace c₁.trace := by
    rw [hc₁]
    exact noSample_checkDupAck { c with tcb := { c.tcb with sndWnd := window.toNat } } ackNum
  rw [processAck]
  dsimp only
  rw [← hc₁]
  split
  · left
    split
    · exact hdup.trans (noSample_sendBufferedData env c₁)
    · exact hdup
  · exact Or.inr ⟨_, hdup.trans (noSample_sendBufferedData env (c₁.advance env ackNum)), rfl⟩

/-- What `process_ack` reports of the connection it leaves. -/
theorem sampled_processAck (ackNum : BitVec 32) (window : UInt16) {p : Ptr} {s : TCPSample}
    (h : .sampled p s ∈ (c.processAck env ackNum window).trace.drop c.trace.length) :
    s.bytesInFlight = if (c.processAck env ackNum window).tcb.sndUna <
        (c.processAck env ackNum window).tcb.sndNxt then
      (c.processAck env ackNum window).tcb.sndNxt - (c.processAck env ackNum window).tcb.sndUna
    else 0 := by
  have hnone {tr : List Event} (hgrows : Grows Event.NoSample c.trace tr) :
      .sampled p s ∉ tr.drop c.trace.length := by
    obtain ⟨m, rfl, hm⟩ := hgrows
    rw [List.drop_left]
    exact fun hmem => hm _ hmem
  rcases processAck_cases env c ackNum window with hgrows | ⟨c', hgrows, heq⟩
  · exact absurd h (hnone hgrows)
  · obtain ⟨huna, hnxt⟩ := sample_unchanged env c'
    rw [heq] at h ⊢
    rw [huna, hnxt]
    rcases sample_cases env c' with htrace | ⟨s', htrace, hs'⟩
    · rw [htrace] at h
      exact absurd h (hnone hgrows)
    · rw [htrace, List.drop_append_of_le_length hgrows.isPrefix.length_le] at h
      rcases List.mem_append.mp h with h | h
      · exact absurd h (hnone hgrows)
      · cases List.mem_singleton.mp h
        exact hs'

end Conn

/-! ## The details of a connection -/

/-- `tcp_state_name` -/
def tcpStateName : TCPState → String
  | .closed => "CLOSED"
  | .listen => "LISTEN"
  | .synSent => "SYN_SENT"
  | .synRcvd => "SYN_RCVD"
  | .established => "ESTABLISHED"
  | .finWait1 => "FIN_WAIT_1"
  | .finWait2 => "FIN_WAIT_2"
  | .closeWait => "CLOSE_WAIT"
  | .closing => "CLOSING"
  | .lastAck => "LAST_ACK"
  | .timeWait => "TIME_WAIT"

/-- `struct ConnectionDetail`. -/
structure ConnectionDetail where
  localIp : UInt32
  localPort : UInt16
  remoteIp : UInt32
  remotePort : UInt16
  state : String
  rttUs : UInt32
  srttUs : UInt32
  cwnd : UInt32
  bytesInFlight : BitVec 32
  sendBufferUsed : UInt32
  /-- Nothing is ever written to the receive buffer. -/
  recvBufferUsed : UInt32 := 0
  bytesSent : UInt64 := 0
  bytesReceived : UInt64 := 0
  establishedAt : Nat
  deriving DecidableEq, Repr

variable {σ : Type}

/-- The TCBs `for_each_connection` visits. -/
def TCPConnectionManager.visited (m : TCPConnectionManager σ) : List (TCB σ) :=
  (m.connections.filterMap fun e => m.heap e.2).filter (·.state ≠ .closed)

namespace TelemetryAPI
variable [ICongestionControl σ]

/-- What `connections()` says of a TCB. -/
def detail (t : TCB σ) : ConnectionDetail where
  localIp := t.tTuple.localIp
  localPort := t.tTuple.localPort
  remoteIp := t.tTuple.remoteIp
  remotePort := t.tTuple.remotePort
  state := tcpStateName t.state
  rttUs := t.lastRttUs
  srttUs := t.srttUs
  cwnd := match t.congestionControl with
    | some cc => cc.cwnd
    | none => 0
  bytesInFlight := if t.sndUna ≤ t.sndNxt then t.sndNxt - t.sndUna else 0
  sendBufferUsed := UInt32.ofNat t.sendBuffer.size
  establishedAt := t.lastActivity

/-- `connections()` -/
def connections (m : TCPConnectionManager σ) : List ConnectionDetail := m.visited.map detail

theorem detail_iff (t : TCB σ) :
    (detail t).bytesInFlight.toNat = t.inFlight ↔ t.sndUna ≤ t.sndNxt := by
  rw [TCB.inFlight, BitVec.toNat_inj]
  refine reported_eq_iff (fun h => ?_) (fun h => ?_) (fun h => ?_)
  · exact if_pos (BitVec.le_of_lt h)
  · exact if_neg (BitVec.not_le.mpr h)
  · refine (if_pos (h ▸ BitVec.le_refl _)).trans ?_
    rw [h]
    exact BitVec.sub_self _

/-- **What is reported in flight is right exactly while `snd_nxt` has not wrapped around
before `snd_una`**: by `connections()` in every state a run leads to, and by every sample
`process_ack` takes. -/
theorem bytes_in_flight_iff (localIp : UInt32) (xs : List (Input σ)) :
    (let m := GuardedRun.run TCPConnectionManager.step (.init localIp) xs
      ∀ t ∈ m.visited, detail t ∈ connections m ∧
        ((detail t).bytesInFlight.toNat = t.inFlight ↔ t.sndUna ≤ t.sndNxt)) ∧
    ∀ (env : Env) (c : Conn σ) (ackNum : BitVec 32) (window : UInt16) (p : Ptr) (s : TCPSample),
      .sampled p s ∈ (c.processAck env ackNum window).trace.drop c.trace.length →
        let t := (c.processAck env ackNum window).tcb
        (s.bytesInFlight.toNat = t.inFlight ↔ t.sndUna ≤ t.sndNxt) := by
  refine ⟨fun t ht => ⟨List.mem_map_of_mem ht, detail_iff t⟩, ?_⟩
  intro env c ackNum window p s hs
  have hreported := Conn.sampled_processAck env c ackNum window hs
  show s.bytesInFlight.toNat = TCB.inFlight _ ↔ _
  rw [TCB.inFlight, BitVec.toNat_inj]
  refine reported_eq_iff (fun h => ?_) (fun h => ?_) (fun h => ?_)
  · rw [hreported, if_pos h]
  · rw [hreported, if_neg (BitVec.not_lt.mpr (BitVec.le_of_lt h))]
  · rw [hreported, h, if_neg (BitVec.not_lt.mpr (BitVec.le_refl _))]

/-- **A SYN with the last sequence number is in flight, and not reported.** -/
theorem wrapped_unreported :
    ¬ ∀ t ∈ (GuardedRun.run TCPConnectionManager.step
        (.init 0x0a000001 : TCPConnectionManager (TCPCubic Unit))
        [⟨.silent 0 0xffffffff, .call (.connect 0x0a000002 80 5000 none)⟩]).visited,
      seqLe t.sndUna t.sndNxt = true → (detail t).bytesInFlight.toNat = t.inFlight := by
  decide +kernel

end TelemetryAPI
end NeuStack
