import NeuStack.GuardedRun
import NeuStack.Listeners
import NeuStack.SendKept

/-! # Sending after `close()`

`close()` sends the FIN at once if the send buffer can be emptied, and otherwise leaves it to
the acknowledgement that empties it.  `Flushes c c'` says what happens to the buffer until
then, as long as nothing is added: what a call newly transmits is the front of it, and a FIN
comes when all of it is out.

`send()` looks at the state only, and the state is still `ESTABLISHED` or `CLOSE_WAIT` while
the FIN waits; then it takes data that the FIN goes behind.
-/
namespace NeuStack

/-- What an event transmits for the first time. -/
def Event.newBytes (p : Ptr) : Event → List UInt8
  | .sent q .segment seg => if q = p then seg.data else []
  | _ => []

/-- The data that is newly transmitted. -/
def newBytes (p : Ptr) (tr : List Event) : List UInt8 := tr.flatMap (Event.newBytes p)

/-- An event that neither takes bytes nor transmits any for the first time, nor a FIN. -/
structure Event.Idle (p : Ptr) (ev : Event) : Prop where
  bytes : ev.bytes p = []
  newBytes : ev.newBytes p = []
  notFin : ∀ seg, ev = .sent p .segment seg → seg.isFin = false

theorem newBytes_append (p : Ptr) (tr tr' : List Event) :
    newBytes p (tr ++ tr') = newBytes p tr ++ newBytes p tr' := List.flatMap_append

theorem newBytes_idle {p : Ptr} {tr : List Event} (h : ∀ ev ∈ tr, ev.Idle p) :
    newBytes p tr = [] :=
  List.flatMap_eq_nil_iff.mpr fun ev hev => (h ev hev).newBytes

namespace Conn
variable {σ : Type} {c c' c₁ c₂ : Conn σ}

/-- **What a call does with the bytes that wait**: it takes none, transmits a front of them,
and a FIN only behind the last. -/
structure Flushes (c c' : Conn σ) : Prop where
  ptr : c'.ptr = c.ptr
  options : c'.tcb.options = c.tcb.options
  log : ∃ evs, c'.trace = c.trace ++ evs ∧ (∀ ev ∈ evs, ev.bytes c.ptr = []) ∧
    (c.tcb.options.mss.toNat ≤ tcpMssMax →
      newBytes c.ptr evs ++ c'.tcb.sendBuffer.contents = c.tcb.sendBuffer.contents ∧
      ∀ pre seg rest, evs = pre ++ .sent c.ptr .segment seg :: rest → seg.isFin = true →
        newBytes c.ptr pre = c.tcb.sendBuffer.contents)

namespace Flushes

/-- A call that does not concern the buffer. -/
theorem idle (hptr : c'.ptr = c.ptr) (hoptions : c'.tcb.options = c.tcb.options)
    (hbuffer : c'.tcb.sendBuffer = c.tcb.sendBuffer)
    (hgrows : Grows (Event.Idle c.ptr) c.trace c'.trace) : c.Flushes c' := by
  obtain ⟨evs, htrace, hidle⟩ := hgrows
  refine ⟨hptr, hoptions, evs, htrace, fun ev hev => (hidle ev hev).bytes, fun _ => ⟨?_, ?_⟩⟩
  · rw [newBytes_idle hidle, hbuffer]
    rfl
  · rintro pre seg rest rfl hfin
    have hnot := (hidle _ (List.mem_append_right _ (List.mem_cons_self ..))).notFin seg rfl
    rw [hnot] at hfin
    cases hfin

theorem refl (c : Conn σ) : c.Flushes c := .idle rfl rfl rfl (.refl _)

theorem trans (h : c.Flushes c₁) (h' : c₁.Flushes c₂) : c.Flushes c₂ := by
  obtain ⟨evs, htrace, hbytes, hflush⟩ := h.log
  obtain ⟨evs', htrace', hbytes', hflush'⟩ := h'.log
  rw [h.ptr] at hbytes' hflush'
  rw [h.options] at hflush'
  refine ⟨h'.ptr.trans h.ptr, h'.options.trans h.options, evs ++ evs', ?_, ?_, fun hmss => ?_⟩
  · rw [htrace', htrace, List.append_assoc]
  · intro ev hev
    exact (List.mem_append.mp hev).elim (hbytes ev) (hbytes' ev)
  · obtain ⟨hnew, hfin⟩ := hflush hmss
    obtain ⟨hnew', hfin'⟩ := hflush' hmss
    refine ⟨by rw [newBytes_append, List.append_assoc, hnew', hnew], ?_⟩
    intro pre seg rest heq hseg
    rcases List.append_eq_append_iff.mp heq with ⟨m, rfl, hm⟩ | ⟨m, rfl, hm⟩
    · -- the FIN is among the later events
      rw [newBytes_append, hfin' m seg rest hm hseg, hnew]
    · cases m with
      | nil =>
        rw [List.nil_append] at hm
        have hfirst := hfin' [] seg rest hm.symm hseg
        have hempty : c₁.tcb.sendBuffer.contents = [] := hfirst.symm
        rw [hempty, List.append_nil, List.append_nil] at hnew
        exact hnew
      | cons ev m =>
        rw [List.cons_append, List.cons_eq_cons] at hm
        obtain ⟨rfl, -⟩ := hm
        exact hfin pre seg m rfl hseg

end Flushes

/-! ## The functions -/

/-- A segment without data and FIN. -/
theorem idle_sendSegment (env : Env) (flags : UInt8)
    (hflags : TCPFlags.has flags TCPFlags.fin = false) (c : Conn σ) :
    c.Flushes (c.sendSegment env flags []) := by
  refine .idle (sendSegment_ptr ..) (congrArg TCBIdentity.options (sendSegment_identity ..))
    (sendSegment_sendBuffer ..) ?_
  unfold sendSegment
  refine .single ⟨rfl, ?_, ?_⟩
  · exact if_pos rfl
  · rintro seg ⟨⟩
    exact hflags

theorem idle_rawSend (flags : UInt8) (seq : BitVec 32) (data : List UInt8) (c : Conn σ) :
    c.Flushes (c.rawSend flags seq data) := by
  refine .idle (rawSend_ptr ..) (by rw [rawSend_tcb]) (by rw [rawSend_tcb]) ?_
  unfold rawSend
  split
  · exact .refl _
  · exact .single ⟨rfl, rfl, nofun⟩

theorem idle_sendZeroWindowProbe (c : Conn σ) : c.Flushes c.sendZeroWindowProbe := by
  refine .idle (sendZeroWindowProbe_ptr ..) (by rw [sendZeroWindowProbe_tcb])
    (by rw [sendZeroWindowProbe_tcb]) ?_
  unfold sendZeroWindowProbe
  split
  · exact .refl _
  · exact .single ⟨rfl, rfl, nofun⟩

theorem idle_log (c : Conn σ) {ev : Event} (h : ev.Idle c.ptr) : c.Flushes (c.log ev) :=
  .idle rfl rfl rfl (.single h)

theorem idle_setState (c : Conn σ) (s : TCPState) : c.Flushes (c.setState s) :=
  .idle rfl rfl rfl (.single ⟨rfl, rfl, nofun⟩)

/-- A change of members that are neither the buffer nor the options. -/
theorem idle_tcb (c : Conn σ) {t : TCB σ} (hoptions : t.options = c.tcb.options)
    (hbuffer : t.sendBuffer = c.tcb.sendBuffer) : c.Flushes { c with tcb := t } :=
  .idle rfl hoptions hbuffer (.refl _)

/-- The FIN, when nothing waits. -/
theorem flushes_fin (env : Env) (hbuf : c.tcb.sendBuffer.contents = []) :
    c.Flushes (c.sendSegment env (TCPFlags.fin ||| TCPFlags.ack) []) := by
  rw [sendSegment_fin]
  refine ⟨rfl, rfl, _, rfl, fun ev hev => ?_, fun _ => ⟨?_, ?_⟩⟩
  · rw [List.mem_singleton.mp hev]
    rfl
  · show newBytes c.ptr [_] ++ c.tcb.sendBuffer.contents = _
    rw [hbuf, newBytes, List.flatMap_singleton, Event.newBytes, if_pos rfl]
    rfl
  · intro pre seg rest heq _
    rcases List.append_eq_singleton_iff.mp heq.symm with ⟨rfl, -⟩ | ⟨-, hnil⟩
    · exact hbuf.symm
    · cases hnil

/-- Data, if it fits a segment. -/
theorem sendSegment_events (env : Env) (data : List UInt8) (c : Conn σ) : ∃ evs,
    (c.sendSegment env (TCPFlags.ack ||| TCPFlags.psh) data).trace = c.trace ++ evs ∧
      (∀ ev ∈ evs, ev.bytes c.ptr = []) ∧
      (data.length ≤ tcpMssMax → newBytes c.ptr evs = data) ∧
      ∀ seg, .sent c.ptr .segment seg ∈ evs → seg.isFin = false := by
  unfold sendSegment
  split
  · rename_i hlong
    exact ⟨[], (List.append_nil _).symm, nofun, fun hle => absurd hlong (Nat.not_lt.mpr hle), nofun⟩
  · refine ⟨_, rfl, fun ev hev => ?_, fun _ => ?_, fun seg hseg => ?_⟩
    · rw [List.mem_singleton.mp hev]
      rfl
    · rw [newBytes, List.flatMap_singleton, Event.newBytes, if_pos rfl]
      rfl
    · cases List.mem_singleton.mp hseg
      exact TCPFlags.plain_push.2

variable [ICongestionControl σ]

theorem flushes_drainStep (env : Env) (c : Conn σ) : c.Flushes (c.drainStep env) := by
  have hle : chunk c.tcb ≤ c.tcb.sendBuffer.peekContiguous.length := by
    rw [chunk]
    omega
  have hmax : chunk c.tcb ≤ c.tcb.options.mss.toNat := Nat.min_le_right _ _
  obtain ⟨evs, htrace, hbytes, hnew, hfin⟩ := sendSegment_events env
    (c.tcb.sendBuffer.peekContiguous.take (chunk c.tcb)) c
  refine ⟨drainStep_ptr .., congrArg TCBIdentity.options (sendSegment_identity ..), evs, htrace,
    hbytes, fun hmss => ⟨?_, ?_⟩⟩
  · -- what is consumed is what is looked at
    have hrest : (c.drainStep env).tcb.sendBuffer.contents =
        c.tcb.sendBuffer.contents.drop (chunk c.tcb) := by
      rw [drainStep, sendSegment_sendBuffer]
      exact StreamBuffer.contents_consume ..
    have hpeek : c.tcb.sendBuffer.peekContiguous.take (chunk c.tcb) =
        c.tcb.sendBuffer.contents.take (chunk c.tcb) := by
      rw [StreamBuffer.peekContiguous_eq, List.length_take] at hle
      rw [StreamBuffer.peekContiguous_eq, List.take_take, Nat.min_eq_left (by omega)]
    rw [hnew (by rw [List.length_take]; omega), hpeek, hrest, List.take_append_drop]
  · rintro pre seg rest rfl hseg
    rw [hfin seg (List.mem_append_right _ (List.mem_cons_self ..))] at hseg
    cases hseg

theorem flushes_drain (env : Env) (fuel : Nat) (c : Conn σ) : c.Flushes (c.drain env fuel) :=
  drain_induction (motive := fun c' => c.Flushes c') env
    (fun c' h => h.trans (flushes_drainStep env c')) fuel (.refl c)

omit [ICongestionControl σ] in
theorem flushes_completeClose (env : Env) (c : Conn σ) : c.Flushes (c.completeClose env) := by
  unfold completeClose
  split
  · rename_i hdone
    rw [Bool.and_eq_true, StreamBuffer.empty_iff] at hdone
    have hopen := idle_tcb c (t := { c.tcb with closePending := false }) rfl rfl
    dsimp only
    split
    · exact (hopen.trans (flushes_fin env hdone.1)).trans (idle_setState _ _)
    · exact hopen
  · exact .refl c

theorem flushes_sendBufferedData (env : Env) (c : Conn σ) : c.Flushes (c.sendBufferedData env) := by
  have hwnd : (c.drain env c.tcb.sendBuffer.size).Flushes
    (c.drain env c.tcb.sendBuffer.size).updateRcvWnd := idle_tcb _ rfl rfl
  exact ((flushes_drain env _ c).trans hwnd).trans (flushes_completeClose env _)

/-- **`close()`.** -/
theorem flushes_finish (env : Env) (c : Conn σ) : c.Flushes (c.finish env) := by
  have hsent := flushes_sendBufferedData env c
  rw [finish]
  dsimp only
  split
  · exact hsent.trans (idle_tcb _ rfl rfl)
  · rename_i hbuf
    have hempty : (c.sendBufferedData env).tcb.sendBuffer.contents = [] :=
      (StreamBuffer.empty_iff _).mp (by simpa using hbuf)
    have hlogged := hsent.trans (idle_log _ (show Event.Idle _ (.finishing
      (c.sendBufferedData env).ptr c.tcb.state (c.sendBufferedData env).tcb.state) from
        ⟨rfl, rfl, nofun⟩))
    exact (hlogged.trans (flushes_fin env hempty)).trans (idle_setState _ _)

theorem flushes_checkDupAck (ackNum : BitVec 32) (c : Conn σ) :
    c.Flushes (c.checkDupAck ackNum) := by
  unfold checkDupAck
  split
  · exact .refl c
  · split
    · exact .refl c
    · split
      · exact idle_tcb c rfl rfl
      · split
        · dsimp only
          split
          · exact (idle_tcb c (t := { c.tcb with
              packetsLostPeriod := c.tcb.packetsLostPeriod + 1
              congestionControl := c.tcb.congestionControl.map (·.onLoss 0)
              dupAckCount := 0 }) rfl rfl).trans (idle_rawSend ..)
          · exact idle_tcb c rfl rfl
        · exact idle_tcb c rfl rfl

theorem flushes_sample (env : Env) (c : Conn σ) : c.Flushes (c.sample env) := by
  unfold sample
  dsimp only
  split
  · exact (idle_log c (show Event.Idle _ (.sampled _ _) from ⟨rfl, rfl, nofun⟩)).trans
      (idle_tcb _ rfl rfl)
  · exact .refl c

theorem flushes_processAck (env : Env) (ackNum : BitVec 32) (window : UInt16) (c : Conn σ) :
    c.Flushes (c.processAck env ackNum window) := by
  have hdup := (idle_tcb c (t := { c.tcb with sndWnd := window.toNat }) rfl rfl).trans
    (flushes_checkDupAck ackNum _)
  unfold processAck
  dsimp only
  split
  · split
    · exact hdup.trans (flushes_sendBufferedData env _)
    · exact hdup
  · have hadvance := hdup.trans (idle_tcb _ (t := ((checkDupAck ackNum { c with tcb :=
      { c.tcb with sndWnd := window.toNat } }).advance env ackNum).tcb) rfl rfl)
    exact (hadvance.trans (flushes_sendBufferedData env _)).trans (flushes_sample env _)

omit [ICongestionControl σ] in
theorem flushes_acknowledgeData (env : Env) (c : Conn σ) : c.Flushes (c.acknowledgeData env) := by
  have hack := idle_sendSegment env TCPFlags.ack rfl c
  unfold acknowledgeData
  split
  · split
    · exact idle_tcb c rfl rfl
    · exact hack.trans (idle_tcb _ rfl rfl)
  · exact hack

omit [ICongestionControl σ] in
theorem flushes_checkDelayedAck (env : Env) (c : Conn σ) : c.Flushes (c.checkDelayedAck env) := by
  unfold checkDelayedAck
  split
  · exact (idle_sendSegment env _ rfl c).trans (idle_tcb _ rfl rfl)
  · exact .refl c

omit [ICongestionControl σ] in
theorem flushes_checkZeroWindowProbe (env : Env) (c : Conn σ) :
    c.Flushes (c.checkZeroWindowProbe env) := by
  unfold checkZeroWindowProbe
  split
  · split
    · exact idle_tcb c rfl rfl
    · split
      · exact (idle_sendZeroWindowProbe c).trans (idle_tcb _ rfl rfl)
      · exact .refl c
  · exact idle_tcb c rfl rfl

omit [ICongestionControl σ] in
theorem flushes_countRetransmit (c : Conn σ) : c.Flushes c.countRetransmit := by
  unfold countRetransmit
  split
  · exact .refl c
  · exact idle_tcb c rfl rfl

omit [ICongestionControl σ] in
theorem flushes_retransmit (env : Env) (c : Conn σ) : c.Flushes (c.retransmit env) := by
  unfold retransmit
  split
  · exact .refl c
  · rename_i entry rest _
    have hbackoff := idle_tcb c (t := { c.tcb with
      packetsLostPeriod := c.tcb.packetsLostPeriod + 1
      rtoUs := min (c.tcb.rtoUs * 2) 60000000
      rttMeasuring := false
      retransmitQueue := { entry with
        timeout := env.now + (min (c.tcb.rtoUs * 2) 60000000 : UInt32).toNat } :: rest }) rfl rfl
    dsimp only
    split
    · exact hbackoff.trans (idle_rawSend ..)
    · split
      · exact hbackoff.trans (idle_rawSend ..)
      · exact hbackoff

/-! ## Runs of a connection -/

/-- What happens to a connection once it is established. -/
inductive Action where
  | send (data : List UInt8)
  | close
  | processAck (ackNum : BitVec 32) (window : UInt16)
  /-- Data that is delivered or queued. -/
  | receive (r : TCBReceive)
  | acknowledge
  | acknowledgeData
  | checkDelayedAck
  | checkZeroWindowProbe
  | countRetransmit
  | retransmit
  /-- A handler takes in the FIN of the peer. -/
  | receiveFin (handler next : TCPState)
  /-- A handler assigns the state, which may have changed since the handler was entered. -/
  | move (s : TCPState)

def act (c : Conn σ) (x : Env × Action) : Conn σ :=
  match x.2 with
  | .send data => (c.send x.1 data).2
  | .close => if c.tcb.state.canSend then c.finish x.1 else c
  | .processAck ackNum window => c.processAck x.1 ackNum window
  | .receive r => { c with tcb := { c.tcb with toTCBReceive := r } }
  | .acknowledge => c.sendSegment x.1 TCPFlags.ack []
  | .acknowledgeData => c.acknowledgeData x.1
  | .checkDelayedAck => c.checkDelayedAck x.1
  | .checkZeroWindowProbe => c.checkZeroWindowProbe x.1
  | .countRetransmit => c.countRetransmit
  | .retransmit => c.retransmit x.1
  | .receiveFin handler next =>
    let c := { c with tcb := { c.tcb with rcvNxt := c.tcb.rcvNxt + 1 } }
    let c := c.sendSegment x.1 TCPFlags.ack []
    (c.log (.finReceived c.ptr handler c.tcb.state)).setState next
  | .move s => c.setState s

/-- A `send()` returns -1 and changes nothing. -/
def Refuses (c : Conn σ) (x : Env × Action) : Prop :=
  ∀ data, x.2 = .send data → c.send x.1 data = (-1, c)

/-- At a `send()` the FIN is out, or there is no room. -/
def Shut (c : Conn σ) (x : Env × Action) : Prop :=
  ∀ data, x.2 = .send data → c.tcb.state.canSend = false ∨
    (data ≠ [] ∧ c.tcb.sendBuffer.available = 0)

/-- **The FINs sent between `c` and `c'` are behind exactly the bytes accepted before `c`**: no
more are accepted, and what was in the buffer of `c` is out. -/
def Sealed (c c' : Conn σ) : Prop :=
  ∀ evs seg rest, c'.trace = c.trace ++ evs ++ .sent c.ptr .segment seg :: rest →
    seg.isFin = true → acceptedBytes c.ptr (c.trace ++ evs) = acceptedBytes c.ptr c.trace ∧
      (c.tcb.options.mss.toNat ≤ tcpMssMax → newBytes c.ptr evs = c.tcb.sendBuffer.contents)

omit [ICongestionControl σ] in
theorem Flushes.sealed (h : c.Flushes c') : c.Sealed c' := by
  obtain ⟨evs, htrace, hbytes, hflush⟩ := h.log
  intro pre seg rest heq hfin
  rw [htrace, List.append_assoc, List.append_cancel_left_eq] at heq
  refine ⟨?_, fun hmss => (hflush hmss).2 pre seg rest heq hfin⟩
  have hnone : pre.flatMap (Event.bytes c.ptr) = [] := List.flatMap_eq_nil_iff.mpr fun ev hev =>
    hbytes ev (heq ▸ List.mem_append_left _ hev)
  rw [acceptedBytes, List.flatMap_append, hnone, List.append_nil]
  rfl

/-- A `send()` is refused exactly in the states, and when there is no room. -/
theorem send_refused_iff (env : Env) (data : List UInt8) (c : Conn σ) :
    c.send env data = (-1, c) ↔
      c.tcb.state.canSend = false ∨ (data ≠ [] ∧ c.tcb.sendBuffer.available = 0) := by
  have hstate : (c.tcb.state.canSend = false ∨ data ≠ [] ∧ c.tcb.sendBuffer.available = 0) ↔
      (!c.tcb.state.canSend) = true ∨
        ¬ data.length = 0 ∧ c.tcb.sendBuffer.available = 0 := by
    rw [Bool.not_eq_true', List.length_eq_zero_iff]
  rw [hstate, send]
  split
  · rename_i hcan
    exact ⟨fun _ => Or.inl hcan, fun _ => rfl⟩
  · rename_i hcan
    split
    · rename_i hlen
      refine ⟨fun h => ?_, fun h => ?_⟩
      · cases congrArg Prod.fst h
      · exact (h.elim hcan fun h => h.1 hlen).elim
    · rename_i hlen
      split
      · rename_i hroom
        exact ⟨fun _ => Or.inr ⟨hlen, hroom⟩, fun _ => rfl⟩
      · rename_i hroom
        refine ⟨fun h => ?_, fun h => (h.elim hcan fun h => hroom h.2).elim⟩
        -- the count of the bytes that were taken
        have hcount := congrArg Prod.fst h
        dsimp only at hcount
        split at hcount
        · exact absurd hcount (by omega)
        · split at hcount
          · exact absurd hcount (by omega)
          · split at hcount <;> exact absurd hcount (by omega)

theorem flushes_act (c : Conn σ) (x : Env × Action) (h : c.Shut x) : c.Flushes (c.act x) := by
  obtain ⟨env, a⟩ := x
  cases a with
  | send data =>
    show c.Flushes (c.send env data).2
    rw [(send_refused_iff env data c).mpr (h data rfl)]
    exact .refl c
  | close =>
    show c.Flushes (if c.tcb.state.canSend then c.finish env else c)
    split
    · exact flushes_finish env c
    · exact .refl c
  | processAck ackNum window => exact flushes_processAck env ackNum window c
  | receive r => exact idle_tcb c rfl rfl
  | acknowledge => exact idle_sendSegment env _ rfl c
  | acknowledgeData => exact flushes_acknowledgeData env c
  | checkDelayedAck => exact flushes_checkDelayedAck env c
  | checkZeroWindowProbe => exact flushes_checkZeroWindowProbe env c
  | countRetransmit => exact flushes_countRetransmit c
  | retransmit => exact flushes_retransmit env c
  | receiveFin handler next =>
    have hcounted := idle_tcb c (t := { c.tcb with rcvNxt := c.tcb.rcvNxt + 1 }) rfl rfl
    have hacked := hcounted.trans (idle_sendSegment env TCPFlags.ack rfl _)
    refine (hacked.trans (idle_log _ ?_)).trans (idle_setState _ next)
    exact ⟨rfl, rfl, nofun⟩
  | move s => exact idle_setState c s

theorem flushes_run {c : Conn σ} {xs : List (Env × Action)}
    (h : GuardedRun.Meets act Shut c xs) : c.Flushes (GuardedRun.run act c xs) := by
  induction xs generalizing c with
  | nil => exact .refl c
  | cons x xs ih => exact (flushes_act c x h.1).trans (ih h.2)

/-- **Nothing is accepted after `close()` exactly if every later `send()` finds the FIN out or
no room**; then the FIN is behind exactly the bytes accepted before. -/
theorem sealed_iff (c : Conn σ) (env : Env) (xs : List (Env × Action)) :
    GuardedRun.Meets act Refuses (c.act (env, .close)) xs ∧
        c.Sealed (GuardedRun.run act (c.act (env, .close)) xs) ↔
      GuardedRun.Meets act Shut (c.act (env, .close)) xs := by
  have hsame : GuardedRun.Meets act Refuses (c.act (env, .close)) xs ↔
      GuardedRun.Meets act Shut (c.act (env, .close)) xs :=
    GuardedRun.meets_congr (Q := fun _ => True) (fun _ _ _ => trivial)
      (fun c x _ => forall_congr' fun data => imp_congr_right fun _ =>
        send_refused_iff x.1 data c) trivial xs
  rw [hsame]
  refine and_iff_left_of_imp fun hshut => Flushes.sealed ?_
  exact (flushes_act c (env, .close) nofun).trans (flushes_run hshut)

/-! ### A peer without room -/

/-- A host that accepted a connection from a peer with a closed window. -/
def stalledHost : TCPConnectionManager (TCPCubic Unit) :=
  GuardedRun.run TCPConnectionManager.step (.init 0x0a000001)
    [⟨.silent 0 0, .call (.listen 80 none)⟩,
      ⟨.silent 1 100, .segment (TCPConnectionManager.fromPeer TCPFlags.syn 7000 0)⟩,
      ⟨.silent 2 0, .segment
        { TCPConnectionManager.fromPeer TCPFlags.ack 7001 101 with window := 0 }⟩,
      ⟨.silent 3 0, .call (.send 1 [1])⟩]

/-- The connection, with a byte that waits. -/
def stalled : Conn (TCPCubic Unit) := ⟨1, (stalledHost.heap 1).getD {}, stalledHost.trace⟩

/-- **The FIN waits for the byte, and the connection takes another.** -/
theorem stalled_accepts : stalled.tcb.state = .established ∧ ∃ env : Env,
    ¬ (GuardedRun.Meets act Refuses (stalled.act (env, .close)) [(env, .send [2])] ∧
      stalled.Sealed (GuardedRun.run act (stalled.act (env, .close)) [(env, .send [2])])) := by
  obtain ⟨env, hstate, htakes⟩ : ∃ env : Env, stalled.tcb.state = .established ∧
      ((stalled.act (env, .close)).send env [2]).1 ≠ -1 :=
    ⟨(Context.silent 4 0 : Context (TCPCubic Unit)).toEnv, by decide +kernel⟩
  refine ⟨hstate, env, ?_⟩
  rintro ⟨⟨hrefused, -⟩, -⟩
  exact htakes (congrArg Prod.fst (hrefused [2] rfl))

end Conn
end NeuStack
