import NeuStack.TCBInvariants

/-! # The retransmission timer

An entry of the retransmission queue does not say what was sent: one with data is sent again
as data, one without as whatever the state of the connection suggests.  The states in which
that is a SYN or a FIN are `SYN_SENT`, `SYN_RCVD`, `FIN_WAIT_1` and `LAST_ACK`; a FIN that is
not acknowledged in another state, `CLOSING` above all, is never sent again
(`timer_acts_iff`).
-/
namespace NeuStack
variable {σ : Type}

/-! ## The entries of the queue -/

/-- The sequence numbers of an entry: those of its data, or the one of its SYN or FIN. -/
structure RetransmitEntry.Ok (mss : UInt16) (e : RetransmitEntry) : Prop where
  length_le : e.data.length ≤ tcpMssMax
  length_le_mss : e.data.length ≤ mss.toNat
  seqEnd : e.seqEnd = e.seqStart + BitVec.ofNat 32 (max 1 e.data.length)

namespace RetransmitEntry
variable {mss : UInt16} {e e' : RetransmitEntry}

theorem Ok.congr (h : e.Ok mss) (hstart : e'.seqStart = e.seqStart) (hend : e'.seqEnd = e.seqEnd)
    (hdata : e'.data = e.data) : e'.Ok mss := by
  obtain ⟨h1, h2, h3⟩ := h
  exact ⟨hdata ▸ h1, hdata ▸ h2, by rw [hend, hstart, hdata, h3]⟩

/-- What an acknowledgement leaves of an entry it cuts. -/
theorem Ok.truncate (h : e.Ok mss) {ackNum : BitVec 32} (hend : seqLe e.seqEnd ackNum = false)
    (hstart : seqLt e.seqStart ackNum = true) : (e.truncate ackNum).Ok mss := by
  obtain ⟨hlen, hmss, heq⟩ := h
  rw [← Bool.not_eq_true, seqLe_iff, heq] at hend
  rw [seqLt_iff] at hstart
  have htcp : tcpMssMax = 1460 := rfl
  have hconf : (ackNum - e.seqStart).toNat < max 1 e.data.length ∧
      0 < (ackNum - e.seqStart).toNat := by
    generalize hn : max 1 e.data.length = n at hend
    constructor <;> bv_omega
  have hle : (ackNum - e.seqStart).toNat ≤ tcpMssMax := by omega
  have hdata : (e.truncate ackNum).data = e.data.drop (ackNum - e.seqStart).toNat := if_pos hle
  have hlength : (e.truncate ackNum).data.length =
      e.data.length - (ackNum - e.seqStart).toNat := by
    rw [hdata, List.length_drop]
  refine ⟨by omega, by omega, ?_⟩
  show e.seqEnd = ackNum + _
  rw [hlength, heq]
  generalize hn : (ackNum - e.seqStart).toNat = n at hconf
  rw [show max 1 (e.data.length - n) = e.data.length - n by omega,
    show max 1 e.data.length = e.data.length by omega]
  bv_omega

end RetransmitEntry

/-- What is in the queue behind the loop of `process_ack`. -/
theorem mem_trimQueue {now : Nat} {established : Bool} {ackNum : BitVec 32} {e' : RetransmitEntry}
    {q : List RetransmitEntry} (r : TCBRtt) (h : e' ∈ (trimQueue now established ackNum r q).2) :
    e' ∈ q ∨ ∃ e ∈ q, e' = e.truncate ackNum ∧ seqLe e.seqEnd ackNum = false ∧
      seqLt e.seqStart ackNum = true := by
  induction q generalizing r with
  | nil => exact Or.inl h
  | cons e q ih =>
    rw [trimQueue] at h
    split at h
    · exact (ih _ h).imp (List.mem_cons_of_mem _)
        (Exists.imp fun e => And.imp_left (List.mem_cons_of_mem _))
    rename_i hend
    split at h
    · rename_i hstart
      rcases List.mem_cons.mp h with rfl | h
      · exact Or.inr ⟨e, List.mem_cons_self .., rfl, by simpa using hend, hstart⟩
      · exact Or.inl (List.mem_cons_of_mem _ h)
    · exact Or.inl h

/-- The entries of a TCB have the numbers of what they hold. -/
def TCB.EntriesOk (t : TCB σ) : Prop := ∀ e ∈ t.retransmitQueue, e.Ok t.options.mss

theorem TCB.EntriesOk.congr {t t' : TCB σ} (h : t.EntriesOk)
    (hq : t'.retransmitQueue = t.retransmitQueue) (hid : t'.toTCBIdentity = t.toTCBIdentity) :
    t'.EntriesOk := by
  rw [TCB.EntriesOk, hq, hid]
  exact h

namespace Conn

/-- What `send_segment` queues. -/
theorem sendSegment_queue (env : Env) (flags : UInt8) (data : List UInt8) (c : Conn σ) :
    (c.sendSegment env flags data).tcb.retransmitQueue = c.tcb.retransmitQueue ∨
      data.length ≤ tcpMssMax ∧ (0 < data.length ∨ TCPFlags.has flags (TCPFlags.syn ||| TCPFlags.fin)) ∧
      ∃ e, (c.sendSegment env flags data).tcb.retransmitQueue = c.tcb.retransmitQueue ++ [e] ∧
        e.seqStart = (if TCPFlags.has flags TCPFlags.syn then c.tcb.sndUna else c.tcb.sndNxt) ∧
        e.seqEnd = c.tcb.sndNxt + BitVec.ofNat 32 (seqSpace flags data.length) ∧ e.data = data := by
  rw [sendSegment]
  split
  · exact Or.inl rfl
  · dsimp only
    split
    · rename_i hlen hneeds
      rw [Bool.or_eq_true, decide_eq_true_eq] at hneeds
      exact Or.inr ⟨Nat.not_lt.mp hlen, hneeds, _, rfl, rfl, rfl, rfl⟩
    · exact Or.inl rfl

/-- Data that goes out leaves the entries well-formed. -/
theorem entriesOk_sendData (env : Env) {data : List UInt8} {c : Conn σ} (h : c.tcb.EntriesOk)
    (hmss : data.length ≤ c.tcb.options.mss.toNat) :
    (c.sendSegment env (TCPFlags.ack ||| TCPFlags.psh) data).tcb.EntriesOk := by
  have hid := sendSegment_identity env (TCPFlags.ack ||| TCPFlags.psh) data c
  rcases sendSegment_queue env (TCPFlags.ack ||| TCPFlags.psh) data c with hq |
    ⟨hlen, hneeds, e, hq, hstart, hend, hdata⟩
  · exact h.congr hq hid
  · rw [TCB.EntriesOk, hq, hid]
    intro e' he'
    rcases List.mem_append.mp he' with he' | he'
    · exact h e' he'
    · rw [List.mem_singleton.mp he']
      have hpos : 0 < data.length := hneeds.resolve_right (by decide)
      refine ⟨hdata ▸ hlen, hdata ▸ hmss, ?_⟩
      rw [hend, hstart, hdata, Nat.max_eq_right hpos]
      congr 2
      exact (Nat.zero_add _)

/-- So does a FIN. -/
theorem entriesOk_sendFin (env : Env) {c : Conn σ} (h : c.tcb.EntriesOk) :
    (c.sendSegment env (TCPFlags.fin ||| TCPFlags.ack) []).tcb.EntriesOk := by
  rw [sendSegment_fin]
  intro e he
  rcases List.mem_append.mp he with he | he
  · exact h e he
  · rw [List.mem_singleton.mp he]
    exact ⟨Nat.zero_le _, Nat.zero_le _, rfl⟩

end Conn

variable [ICongestionControl σ]

theorem Conn.Move.entriesOk {x : Option TCPSegment} {c c' : Conn σ} (hmove : Conn.Move x c c')
    (h : c.tcb.EntriesOk) : c'.tcb.EntriesOk := by
  cases hmove with
  | advance env c seg =>
    intro e' he'
    rcases mem_trimQueue _ he' with he | ⟨e, he, rfl, hend, hstart⟩
    · exact h e' he
    · exact (h e he).truncate hend hstart
  | touchHead c e rest count timeout hq =>
    intro e' he'
    rcases List.mem_cons.mp he' with rfl | he'
    · exact (h e (hq ▸ List.mem_cons_self ..)).congr rfl rfl rfl
    · exact h e' (hq ▸ List.mem_cons_of_mem _ he')
  | resend => rwa [rawSend_tcb]
  | resendBare => rwa [rawSend_tcb]
  | probe => rwa [sendZeroWindowProbe_tcb]
  | ack env c => exact h.congr (sendSegment_ack_retransmitQueue env c) (sendSegment_identity ..)
  | delayedAck env c =>
    exact h.congr (sendSegment_ack_retransmitQueue env c) (sendSegment_identity env TCPFlags.ack [] c)
  | drain env c =>
    refine TCB.EntriesOk.congr (entriesOk_sendData env h (Nat.le_trans (List.length_take_le ..) ?_))
      rfl rfl
    exact Nat.min_le_right ..
  | transmitData env c data n hs hne hfit hbuf hav hn =>
    refine TCB.EntriesOk.congr (entriesOk_sendData env (c := c.log (.accepted c.ptr data)) h
      (Nat.le_trans (List.length_take_le ..) ?_)) rfl rfl
    rw [hn]
    exact Nat.min_le_right ..
  | deferredFin env c =>
    exact (entriesOk_sendFin env (c := { c with tcb := { c.tcb with closePending := false } })
      h).congr rfl rfl
  | finish env c s =>
    exact (entriesOk_sendFin env (c := c.log (.finishing c.ptr s c.tcb.state)) h).congr rfl rfl
  | _ => exact h

omit [ICongestionControl σ] in
/-- A SYN from a TCB that has sent nothing. -/
theorem TCB.entriesOk_sendSyn {t : TCB σ} (hq : t.retransmitQueue = [])
    (hnum : t.sndUna = t.sndNxt) (now : Nat) {flags : UInt8} (hflags : seqSpace flags 0 = 1) :
    (t.sendSyn now flags).EntriesOk := by
  intro e he
  have he : e ∈ t.retransmitQueue ++ _ := he
  rw [hq, List.nil_append] at he
  rw [List.mem_singleton.mp he]
  refine ⟨Nat.zero_le _, Nat.zero_le _, ?_⟩
  show t.sndNxt + BitVec.ofNat 32 (seqSpace flags 0) = t.sndUna + _
  rw [hflags, hnum]
  rfl

/-- **The entries of the queue are well-formed in every state.** -/
theorem TCB.keeps_entriesOk (x : Option TCPSegment) : TCB.Keeps (σ := σ) TCB.EntriesOk x where
  new t ht := by
    cases ht with
    | listen => exact fun e he => absurd he List.not_mem_nil
    | connect env => exact TCB.entriesOk_sendSyn rfl rfl env.now rfl
    | accept env => exact TCB.entriesOk_sendSyn rfl rfl env.now rfl
  change t u hchange ht := by
    cases hchange with
    | conn _ hmove => exact hmove.entriesOk ht
    | popOoo =>
      rw [TCPConnectionManager.popOoo]
      split <;> exact ht
    | stash =>
      rw [TCPConnectionManager.addToOooQueue]
      split <;> exact ht
    | reopen t seg now hs huna => exact TCB.entriesOk_sendSyn rfl huna now rfl
    | release => exact fun e he => absurd he List.not_mem_nil
    | _ => exact ht

namespace Conn

omit [ICongestionControl σ] in
/-- The timeout of the head `e` of the queue is counted. -/
theorem countRetransmit_eq {c : Conn σ} {e : RetransmitEntry} {rest : List RetransmitEntry}
    (hq : c.tcb.retransmitQueue = e :: rest) :
    c.countRetransmit = { c with tcb := { c.tcb with
      retransmitQueue := { e with retransmitCount := e.retransmitCount + 1 } :: rest
      congestionControl := c.tcb.congestionControl.map (·.renoTimeout) } } := by
  rw [countRetransmit, hq]

omit [ICongestionControl σ] in
/-- What `check_retransmit` sets before it sends. -/
def backOff (env : Env) (e : RetransmitEntry) (rest : List RetransmitEntry) (t : TCB σ) : TCB σ :=
  { t with
    packetsLostPeriod := t.packetsLostPeriod + 1
    rtoUs := min (t.rtoUs * 2) 60000000
    rttMeasuring := false
    retransmitQueue :=
      { e with timeout := env.now + (min (t.rtoUs * 2) 60000000 : UInt32).toNat } :: rest }

omit [ICongestionControl σ] in
theorem retransmit_eq (env : Env) {c : Conn σ} {e : RetransmitEntry} {rest : List RetransmitEntry}
    (hq : c.tcb.retransmitQueue = e :: rest) :
    c.retransmit env =
      if 0 < e.data.length then
        { c with tcb := backOff env e rest c.tcb }.rawSend (TCPFlags.ack ||| TCPFlags.psh) e.seqStart
          (e.data.take c.tcb.options.mss.toNat)
      else if retransmitFlags c.tcb.state ≠ 0 then
        { c with tcb := backOff env e rest c.tcb }.rawSend (retransmitFlags c.tcb.state) e.seqStart []
      else { c with tcb := backOff env e rest c.tcb } := by
  rw [retransmit, hq]
  rfl

omit [ICongestionControl σ] in
theorem retransmit_tcb (env : Env) {c : Conn σ} {e : RetransmitEntry}
    {rest : List RetransmitEntry} (hq : c.tcb.retransmitQueue = e :: rest) :
    (c.retransmit env).tcb = backOff env e rest c.tcb := by
  rw [retransmit_eq env hq]
  split
  · exact rawSend_tcb ..
  · split
    · exact rawSend_tcb ..
    · rfl

end Conn

namespace TCPConnectionManager
variable {m : TCPConnectionManager σ} {p : Ptr} {t : TCB σ}

/-- `check_retransmit` finds the head of the queue timed out, and not too often. -/
def Retransmits (ctx : Context σ) (p : Ptr) (m : TCPConnectionManager σ) : Prop :=
  m.test p (retransmitDue ctx.now) = true ∧ (m.on p (·.countRetransmit)).test p exhausted = false

omit [ICongestionControl σ] in
theorem Retransmits.queue {ctx : Context σ} (hp : m.heap p = some t) (h : m.Retransmits ctx p) :
    ∃ e rest, t.retransmitQueue = e :: rest := by
  have hdue := h.1
  rw [test_of_heap hp, retransmitDue] at hdue
  cases hq : t.retransmitQueue with
  | nil =>
    rw [hq] at hdue
    cases hdue
  | cons e rest => exact ⟨e, rest, rfl⟩

/-- The retransmission. -/
theorem checkRetransmit_eq {ctx : Context σ} (hp : m.heap p = some t) (h : m.Retransmits ctx p) :
    m.checkRetransmit ctx p =
      m.store (((Conn.mk p t m.trace).countRetransmit).retransmit ctx.toEnv) := by
  have hcount := (Conn.path_countRetransmit (x := none) (Conn.mk p t m.trace)).ptr
  have hretransmit := (Conn.path_retransmit (x := none) ctx.toEnv
    (Conn.mk p t m.trace).countRetransmit).ptr
  rw [checkRetransmit, if_pos h.1]
  dsimp only
  rw [if_neg (by rw [h.2]; exact Bool.false_ne_true), on_of_heap hp,
    on_store hcount _ (hretransmit.trans hcount)]

end TCPConnectionManager

/-! ## What the timer does -/

/-- The connection is opening: what is not acknowledged is its SYN. -/
def TCB.IsOpening (t : TCB σ) : Prop := t.state = .synSent ∨ t.state = .synRcvd

/-- **The segment sends the entry again**: its data, the SYN of a connection that is opening,
or the FIN of another. -/
structure Resends (t : TCB σ) (e : RetransmitEntry) (seg : TCPSegment) : Prop where
  seqNum : seg.seqNum = e.seqStart
  data : seg.data = e.data
  space : e.seqEnd = e.seqStart + BitVec.ofNat 32 (seqSpace seg.flags seg.data.length)
  syn : e.data = [] → t.IsOpening → TCPFlags.has seg.flags TCPFlags.syn = true
  fin : e.data = [] → ¬ t.IsOpening → TCPFlags.has seg.flags TCPFlags.fin = true

/-- The timeout is doubled up to 60 s, and the head of the queue has it. -/
structure Rearms (now : Nat) (t : TCB σ) (e : RetransmitEntry) (u : TCB σ) : Prop where
  rtoUs : u.rtoUs.toNat = min (2 * t.rtoUs.toNat) 60000000
  timeout : ∃ e', u.retransmitQueue.head? = some e' ∧ e'.seqStart = e.seqStart ∧
    e'.timeout = now + u.rtoUs.toNat

/-- The timeout is one too many. -/
def TCB.GivesUp (t : TCB σ) (e : RetransmitEntry) : Prop :=
  t.options.maxRetransmit < ((e.retransmitCount + 1 : Nat) : Int)

/-- The states in which an entry without data is sent again. -/
def TCPState.Resendable (s : TCPState) : Prop :=
  s = .synSent ∨ s = .synRcvd ∨ s = .finWait1 ∨ s = .lastAck

/-- Doubling the timeout does not overflow, or the rest is still above 60 s. -/
def Doubles (rtoUs : UInt32) : Prop := rtoUs.toNat < 2 ^ 31 ∨ 2 ^ 31 + 30000000 ≤ rtoUs.toNat

/-- What the timer can act on: an entry that has been sent too often, or one that is sent again
in this state, with a timeout that can be doubled. -/
def TCB.TimerFits (t : TCB σ) (e : RetransmitEntry) : Prop :=
  t.GivesUp e ∨ (e.data ≠ [] ∨ t.state.Resendable) ∧ Doubles t.rtoUs

theorem doubles_iff (rtoUs : UInt32) :
    (min (rtoUs * 2) 60000000).toNat = min (2 * rtoUs.toNat) 60000000 ↔ Doubles rtoUs := by
  have hlt := rtoUs.toNat_lt
  rw [toNat_min, UInt32.toNat_mul, Doubles, show (2 : UInt32).toNat = 2 from rfl,
    show (60000000 : UInt32).toNat = 60000000 from rfl]
  omega

omit [ICongestionControl σ] in
/-- Backing off sets the timer, with the right timeout if that can be doubled. -/
theorem rearms_backOff (env : Env) {t t' : TCB σ} {e e' : RetransmitEntry}
    (rest : List RetransmitEntry) (hrto : t'.rtoUs = t.rtoUs) (hstart : e'.seqStart = e.seqStart) :
    Rearms env.now t e (Conn.backOff env e' rest t') ↔ Doubles t.rtoUs := by
  rw [← doubles_iff, ← hrto]
  constructor
  · exact fun h => h.rtoUs.trans (by rw [hrto])
  · intro h
    exact ⟨h.trans (by rw [hrto]), _, rfl, hstart, rfl⟩

namespace Conn
variable {c : Conn σ} {e : RetransmitEntry} {rest : List RetransmitEntry}

theorem retransmitFlags_ne (s : TCPState) : retransmitFlags s ≠ 0 ↔ s.Resendable := by
  rw [TCPState.Resendable]
  cases s <;> decide

/-- The flags an entry without data is sent again with. -/
theorem retransmitFlags_spec {s : TCPState} (h : s.Resendable) :
    seqSpace (retransmitFlags s) 0 = 1 ∧
      (s = .synSent ∨ s = .synRcvd → TCPFlags.has (retransmitFlags s) TCPFlags.syn = true) ∧
      (¬ (s = .synSent ∨ s = .synRcvd) → TCPFlags.has (retransmitFlags s) TCPFlags.fin = true) := by
  rcases h with rfl | rfl | rfl | rfl <;> decide

omit [ICongestionControl σ] in
/-- An entry with data, or in one of the four states, is sent again. -/
theorem retransmit_sends (env : Env) (hq : c.tcb.retransmitQueue = e :: rest)
    (hok : e.Ok c.tcb.options.mss) (h : e.data ≠ [] ∨ c.tcb.state.Resendable) :
    ∃ seg, (c.retransmit env).trace = c.trace ++ [.sent c.ptr .raw seg] ∧ Resends c.tcb e seg := by
  rw [retransmit_eq env hq]
  by_cases hdata : e.data = []
  · have hs := h.resolve_left (not_not_intro hdata)
    obtain ⟨hspace, hsyn, hfin⟩ := retransmitFlags_spec hs
    have hnone : ¬ 0 < e.data.length := by
      rw [hdata]
      exact Nat.lt_irrefl 0
    have hfit : ¬ tcpMssMax < ([] : List UInt8).length := Nat.not_lt_zero _
    rw [if_neg hnone, if_pos ((retransmitFlags_ne _).mpr hs), rawSend, if_neg hfit]
    refine ⟨_, rfl, rfl, hdata.symm, ?_, fun _ => hsyn, fun _ => hfin⟩
    show e.seqEnd = e.seqStart + BitVec.ofNat 32 (seqSpace (retransmitFlags c.tcb.state) 0)
    rw [hok.seqEnd, hdata, hspace]
    rfl
  · have hpos : 0 < e.data.length := List.length_pos_iff_ne_nil.mpr hdata
    have htake : e.data.take c.tcb.options.mss.toNat = e.data :=
      List.take_of_length_le hok.length_le_mss
    rw [if_pos hpos, htake, rawSend, if_neg (Nat.not_lt.mpr hok.length_le)]
    refine ⟨_, rfl, rfl, rfl, ?_, fun h => absurd h hdata, fun h => absurd h hdata⟩
    show e.seqEnd = e.seqStart + BitVec.ofNat 32 (seqSpace (TCPFlags.ack ||| TCPFlags.psh) _)
    rw [hok.seqEnd, Nat.max_eq_right hpos]
    congr 2
    exact (Nat.zero_add _).symm

omit [ICongestionControl σ] in
/-- Any other is not. -/
theorem retransmit_silent (env : Env) (hq : c.tcb.retransmitQueue = e :: rest)
    (hdata : e.data = []) (hs : ¬ c.tcb.state.Resendable) :
    (c.retransmit env).trace = c.trace := by
  have hnone : ¬ 0 < e.data.length := by
    rw [hdata]
    exact Nat.lt_irrefl 0
  rw [retransmit_eq env hq, if_neg hnone, if_neg ((retransmitFlags_ne _).not.mpr hs)]

end Conn

namespace TCPConnectionManager
variable {m : TCPConnectionManager σ} {p : Ptr} {t : TCB σ} {e : RetransmitEntry}
  {rest : List RetransmitEntry} {ctx : Context σ}

/-- **The timer acts** on the head `e` of the queue of the connection at `p`: it gives the
connection up, or sends the entry again and sets the timer. -/
def TimerActs (ctx : Context σ) (p : Ptr) (t : TCB σ) (e : RetransmitEntry)
    (m : TCPConnectionManager σ) : Prop :=
  (t.GivesUp e → ∀ u, (m.checkRetransmit ctx p).heap p = some u → u.state = .closed) ∧
    (¬ t.GivesUp e → ∃ seg u,
      (m.checkRetransmit ctx p).trace = m.trace ++ [.sent p .raw seg] ∧ Resends t e seg ∧
        (m.checkRetransmit ctx p).heap p = some u ∧ Rearms ctx.now t e u)

omit [ICongestionControl σ] in
/-- The count of the head decides which way it goes. -/
theorem exhausted_iff (hp : m.heap p = some t) (hq : t.retransmitQueue = e :: rest) :
    (m.on p (·.countRetransmit)).test p exhausted = true ↔ t.GivesUp e := by
  have hon : (m.on p (·.countRetransmit)).heap p = some { t with
      retransmitQueue := { e with retransmitCount := e.retransmitCount + 1 } :: rest
      congestionControl := t.congestionControl.map (·.renoTimeout) } := by
    rw [on_of_heap hp, Conn.countRetransmit_eq hq]
    exact store_heap_self m ⟨p, _, _⟩
  rw [test_of_heap hon]
  exact decide_eq_true_iff

/-- The connection and the events behind a retransmission. -/
theorem checkRetransmit_result (hp : m.heap p = some t) (h : m.Retransmits ctx p) :
    let c := ((Conn.mk p t m.trace).countRetransmit).retransmit ctx.toEnv
    (m.checkRetransmit ctx p).heap p = some c.tcb ∧ (m.checkRetransmit ctx p).trace = c.trace := by
  have hptr : (((Conn.mk p t m.trace).countRetransmit).retransmit ctx.toEnv).ptr = p :=
    (Conn.path_retransmit (x := none) _ _).ptr.trans (Conn.path_countRetransmit (x := none) _).ptr
  rw [checkRetransmit_eq hp h]
  refine ⟨?_, rfl⟩
  have hself := store_heap_self m (((Conn.mk p t m.trace).countRetransmit).retransmit ctx.toEnv)
  rwa [hptr] at hself

theorem checkRetransmit_acts (hok : t.EntriesOk) (hp : m.heap p = some t)
    (hq : t.retransmitQueue = e :: rest) (hdue : e.timeout ≤ ctx.now) :
    m.TimerActs ctx p t e ↔ t.TimerFits e := by
  have htest : m.test p (retransmitDue ctx.now) = true := by
    rw [test_of_heap hp, retransmitDue, hq]
    exact decide_eq_true hdue
  have hexhausted := exhausted_iff hp hq
  by_cases hgive : t.GivesUp e
  · refine iff_of_true ⟨fun _ u hu => ?_, fun hno => absurd hgive hno⟩ (Or.inl hgive)
    rw [checkRetransmit, if_pos htest] at hu
    dsimp only at hu
    rw [if_pos (hexhausted.mpr hgive)] at hu
    exact endTcb_closed hu
  · have hdo := checkRetransmit_result hp ⟨htest, by simpa using hexhausted.not.mpr hgive⟩
    rw [Conn.countRetransmit_eq hq] at hdo
    -- the connection once the timeout is counted
    let e' : RetransmitEntry := { e with retransmitCount := e.retransmitCount + 1 }
    let c : Conn σ := ⟨p, { t with
      retransmitQueue := e' :: rest
      congestionControl := t.congestionControl.map (·.renoTimeout) }, m.trace⟩
    have hheap : (m.checkRetransmit ctx p).heap p = some (c.retransmit ctx.toEnv).tcb := hdo.1
    have htrace : (m.checkRetransmit ctx p).trace = (c.retransmit ctx.toEnv).trace := hdo.2
    have hq' : c.tcb.retransmitQueue = e' :: rest := rfl
    have hok' : e'.Ok c.tcb.options.mss := (hok e (hq ▸ List.mem_cons_self ..)).congr rfl rfl rfl
    have hrearms : Rearms ctx.now t e (c.retransmit ctx.toEnv).tcb ↔ Doubles t.rtoUs := by
      rw [Conn.retransmit_tcb _ hq']
      exact rearms_backOff ctx.toEnv rest rfl rfl
    constructor
    · intro hacts
      obtain ⟨seg, u, hsent, -, hu, hrearm⟩ := hacts.2 hgive
      rw [hheap] at hu
      cases hu
      refine Or.inr ⟨?_, hrearms.mp hrearm⟩
      by_contra hno
      obtain ⟨hdata, hs⟩ := not_or.mp hno
      rw [htrace, Conn.retransmit_silent _ hq' (not_not.mp hdata) hs] at hsent
      exact List.cons_ne_nil _ _ (List.self_eq_append_right.mp hsent)
    · rintro (hyes | ⟨hsend, hdouble⟩)
      · exact absurd hyes hgive
      · obtain ⟨seg, hsent, h1, h2, h3, h4, h5⟩ := Conn.retransmit_sends ctx.toEnv hq' hok' hsend
        refine ⟨fun hyes => absurd hyes hgive, fun _ => ⟨seg, _, htrace.trans hsent,
          ⟨h1, h2, h3, h4, h5⟩, hheap, hrearms.mpr hdouble⟩⟩

/-- **The timer always acts**, on the head of every queue and in every state of a sweep, if and
only if it can: in particular never for a FIN that is not acknowledged in `CLOSING`. -/
theorem timer_acts_iff {m₀ : TCPConnectionManager σ} (h : m₀.Reachable) (hsweep : m₀.Sweeping ctx m)
    (hp : m.heap p = some t) (hq : t.retransmitQueue = e :: rest) (hdue : e.timeout ≤ ctx.now) :
    m.TimerActs ctx p t e ↔ t.TimerFits e :=
  checkRetransmit_acts (hsweep.tcbs h.wellFormed (TCB.keeps_entriesOk none)
    (h.tcbs TCB.keeps_entriesOk) p t hp) hp hq hdue

/-! ### A SYN that is not answered -/

/-- A host that has sent a SYN to port 80 of 10.0.0.2. -/
def callingHost : TCPConnectionManager (TCPCubic Unit) :=
  (init 0x0a000001).step ⟨.silent 0 0, .call (.connect 0x0a000002 80 5000 none)⟩

theorem callingHost_reachable : callingHost.Reachable := (Reachable.init _).step _

theorem callingHost_eq : callingHost =
    ((init 0x0a000001).openWith (Context.silent (σ := TCPCubic Unit) 0 0).toEnv TCPFlags.syn .synSent
      ((init 0x0a000001).connectTcb (Context.silent (σ := TCPCubic Unit) 0 0).toEnv
        ⟨0x0a000001, 0x0a000002, 5000, 80⟩ none)).log (.connecting 0 none) :=
  connect_eq (m := init 0x0a000001) _ 0x0a000002 80 5000 none (by decide) rfl

theorem callingHost_tcb : ∃ t, callingHost.heap 0 = some t ∧ t.state = .synSent ∧ t.sndNxt = 1 ∧
    t.rcvNxt = 0 ∧ t.rcvWnd = 65535 ∧
    callingHost.findTcb ⟨0x0a000001, 0x0a000002, 5000, 80⟩ = some 0 := by
  rw [callingHost_eq]
  exact ⟨_, rfl, rfl, by decide, rfl, rfl, rfl⟩

/-- After two seconds its SYN has timed out. -/
theorem callingHost_due : ∃ t, callingHost.heap 0 = some t ∧
    callingHost.Retransmits (.silent 2000000 0) 0 := by
  rw [callingHost_eq]
  exact ⟨_, rfl, rfl, rfl⟩

/-- It is sent again. -/
theorem callingHost_acts : ∃ t e, callingHost.heap 0 = some t ∧
    callingHost.TimerActs (.silent 2000000 0) 0 t e := by
  obtain ⟨t, e, hp, hq, hs, hrto, hdue⟩ : ∃ t e, callingHost.heap 0 = some t ∧
      t.retransmitQueue = [e] ∧ t.state = .synSent ∧ t.rtoUs = 1000000 ∧ e.timeout ≤ 2000000 := by
    rw [callingHost_eq]
    exact ⟨_, _, rfl, rfl, rfl, rfl, by decide⟩
  refine ⟨t, e, hp, (timer_acts_iff callingHost_reachable ⟨[], rfl⟩ hp hq hdue).mpr
    (Or.inr ⟨Or.inr (Or.inl hs), Or.inl ?_⟩)⟩
  rw [hrto]
  decide

/-! ### A simultaneous close -/

/-- Both sides close at once: the peer's FIN does not acknowledge the one of this side. -/
def closingHost : TCPConnectionManager (TCPCubic Unit) :=
  GuardedRun.run TCPConnectionManager.step (init 0x0a000001) [
    ⟨.silent 0 0, .call (.connect 0x0a000002 80 5000 none)⟩,
    ⟨.silent 1 0, .segment ⟨0x0a000002, 0x0a000001, 80, 5000, 0, 1,
      TCPFlags.syn ||| TCPFlags.ack, 65535, []⟩⟩,
    ⟨.silent 2 0, .call (.close 0)⟩,
    ⟨.silent 3 0, .segment ⟨0x0a000002, 0x0a000001, 80, 5000, 1, 1,
      TCPFlags.fin ||| TCPFlags.ack, 65535, []⟩⟩]

theorem closingHost_tcb : (closingHost.heap 0).map (fun t =>
    (t.state, t.rtoUs, t.options.maxRetransmit, t.retransmitQueue)) =
      some (.closing, 200000, 5, [⟨1, 2, [], 2, 200002, 0⟩]) := by
  decide +kernel

/-- Its FIN is lost for good. -/
theorem closingHost_stalls : ¬ ∀ (m₀ : TCPConnectionManager (TCPCubic Unit)) ctx m p t e rest,
    m₀.Reachable → m₀.Sweeping ctx m → m.heap p = some t → t.retransmitQueue = e :: rest →
      e.timeout ≤ ctx.now → m.TimerActs ctx p t e := by
  intro hclaim
  obtain ⟨t, hp, htcb⟩ := Option.map_eq_some_iff.mp closingHost_tcb
  simp only [Prod.mk.injEq] at htcb
  obtain ⟨hs, hrto, hmax, hq⟩ := htcb
  have hreach : closingHost.Reachable := ⟨_, _, rfl⟩
  have hacts := hclaim closingHost (.silent 300000 0) closingHost 0 t _ _ hreach ⟨[], rfl⟩ hp hq
    (by decide)
  rcases (checkRetransmit_acts (hreach.tcbs TCB.keeps_entriesOk 0 t hp) hp hq (by decide)).mp
    hacts with hgive | ⟨hsend, -⟩
  · rw [TCB.GivesUp, hmax] at hgive
    exact absurd hgive (by decide)
  · rcases hsend with hdata | hstate
    · exact hdata rfl
    · rw [hs, TCPState.Resendable] at hstate
      exact absurd hstate (by decide)

end TCPConnectionManager
end NeuStack
