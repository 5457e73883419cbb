import NeuStack.RttSamples
import NeuStack.SendSteps
import NeuStack.AckHistory

/-! # The measurement of a connection

What the functions that work on one connection make of its RTT measurement, given what the
network saw: those that send keep it in order (`Outs.measured`), a retransmission by timeout
ends it, and so does an acknowledgement of the segment that is measured.  An acknowledgement
keeps it in order if it leaves that segment alone, or takes all of it (`TCB.Undisturbed`).
-/
namespace NeuStack
variable {σ : Type}

/-- The network sees segments with numbers. -/
theorem Event.happening_eq_none {ev : Event} (h : ev.isNumbered = false) (time : Nat) :
    ev.happening time = none := by
  unfold Event.happening
  split
  · cases h
  · cases h
  · rfl

theorem happenings_concat_of_none {time : Nat} {evs : List Event} {ev : Event}
    (h : ev.happening time = none) : happenings time (evs ++ [ev]) = happenings time evs := by
  rw [happenings, List.filterMap_append, List.filterMap_cons_none h, List.filterMap_nil,
    List.append_nil, happenings]

theorem happenings_concat_of_some {time : Nat} {evs : List Event} {ev : Event} {x : Happening}
    (h : ev.happening time = some x) :
    happenings time (evs ++ [ev]) = happenings time evs ++ [x] := by
  rw [happenings, List.filterMap_append, List.filterMap_cons_some h, List.filterMap_nil, happenings]

theorem has_synFin (flags : UInt8) : TCPFlags.has flags (TCPFlags.syn ||| TCPFlags.fin) =
    (TCPFlags.has flags TCPFlags.syn || TCPFlags.has flags TCPFlags.fin) := by
  have hdistrib : flags &&& (TCPFlags.syn ||| TCPFlags.fin) =
      (flags &&& TCPFlags.syn) ||| (flags &&& TCPFlags.fin) :=
    UInt8.toBitVec_inj.mp BitVec.and_or_distrib_left
  rw [Bool.eq_iff_iff, Bool.or_eq_true, TCPFlags.has, TCPFlags.has, TCPFlags.has, bne_iff_ne,
    bne_iff_ne, bne_iff_ne, hdistrib, Ne, UInt8.or_eq_zero_iff, not_and_or]

/-- The segment takes the numbers it is counted with. -/
theorem TCB.segLen_segment (t : TCB σ) (flags : UInt8) (seq : BitVec 32) (data : List UInt8) :
    (t.segment flags seq data).segLen = seqSpace flags data.length := by
  rw [TCPSegment.segLen, seqSpace, TCPSegment.dataLength, TCPSegment.isSyn, TCPSegment.isFin,
    TCB.segment]
  dsimp only
  omega

/-! ## Sending -/

namespace Conn

/-- The measurement is in order, given what the network saw until the trace was `tr`. -/
def Measured (time : Nat) (seen : List Happening) (tr : List Event) (c : Conn σ) : Prop :=
  ∃ evs, c.trace = tr ++ evs ∧
    NeuStack.Measured c.tcb.toTCBRtt c.tcb.retransmitQueue (seen ++ happenings time evs)

variable {env : Env} {c c' : Conn σ} {seen : List Happening} {tr : List Event}

theorem Measured.concat_of_none (h : c.Measured env.now seen tr) {ev : Event}
    (hev : ev.happening env.now = none) : (c.log ev).Measured env.now seen tr := by
  obtain ⟨evs, htr, hmeasured⟩ := h
  refine ⟨evs ++ [ev], ?_, ?_⟩
  · rw [Conn.log, htr, List.append_assoc]
  · rw [happenings_concat_of_none hev]
    exact hmeasured

/-- A segment with numbers goes out. -/
theorem Measured.enqueue (h : c.Measured env.now seen tr) {t : TCB σ} {seg : TCPSegment}
    (e : RetransmitEntry) (htime : e.sendTime = env.now) (hseq : seg.seqNum = e.seqStart)
    (hlen : 0 < seg.segLen) (hend : e.seqEnd = e.seqStart + BitVec.ofNat 32 seg.segLen)
    (hrtt : t.toTCBRtt = c.tcb.toTCBRtt.measure e.seqStart e.sendTime)
    (hq : t.retransmitQueue = c.tcb.retransmitQueue ++ [e]) :
    Measured env.now seen tr ⟨c.ptr, t, c.trace ++ [.sent c.ptr .segment seg]⟩ := by
  obtain ⟨evs, htr, hmeasured⟩ := h
  have hev : Event.happening env.now (.sent c.ptr .segment seg) =
      some (.sent e.sendTime e.seqStart e.seqEnd) := by
    rw [hend, ← hseq, htime]
    exact if_pos hlen
  refine ⟨evs ++ [.sent c.ptr .segment seg], ?_, ?_⟩
  · rw [htr, List.append_assoc]
  · rw [happenings_concat_of_some hev, ← List.append_assoc, hrtt, hq]
    exact hmeasured.enqueue e

theorem Measured.sendSegment (h : c.Measured env.now seen tr) {flags : UInt8} (data : List UInt8)
    (hsyn : TCPFlags.has flags TCPFlags.syn = false) :
    (c.sendSegment env flags data).Measured env.now seen tr := by
  have hspace : seqSpace flags data.length =
      data.length + if TCPFlags.has flags TCPFlags.fin then 1 else 0 := by
    rw [seqSpace, hsyn, if_neg Bool.false_ne_true, Nat.zero_add]
  rw [Conn.sendSegment]
  split
  · exact h
  rw [hsyn, if_neg Bool.false_ne_true, has_synFin, hsyn, Bool.false_or]
  dsimp only
  split
  · rename_i hneeds
    have hlen := c.tcb.segLen_segment flags c.tcb.sndNxt data
    refine h.enqueue ⟨c.tcb.sndNxt, _, data, env.now, env.now + c.tcb.rtoUs.toNat, 0⟩ rfl rfl ?_
      (by rw [hlen]; rfl) rfl rfl
    rw [hlen, hspace]
    rw [Bool.or_eq_true, decide_eq_true_eq] at hneeds
    rcases hneeds with hneeds | hneeds
    · omega
    · rw [hneeds, if_pos rfl]
      omega
  · rename_i hneeds
    refine Measured.concat_of_none (c := { c with tcb := c.tcb.countSent env.now flags data.length })
      h (if_neg ?_)
    rw [c.tcb.segLen_segment, hspace]
    rw [Bool.or_eq_true, decide_eq_true_eq, not_or] at hneeds
    rw [if_neg hneeds.2]
    omega

theorem Out.measured (hout : Out env c c') (h : c.Measured env.now seen tr) :
    c'.Measured env.now seen tr := by
  cases hout with
  | still hrtt hq _ _ htrace =>
    rw [Conn.Measured, hrtt, hq, htrace]
    exact h
  | log hev => exact h.concat_of_none (Event.happening_eq_none hev env.now)
  | segment data hsyn => exact h.sendSegment data hsyn

theorem Outs.measured (houts : Outs env c c') (h : c.Measured env.now seen tr) :
    c'.Measured env.now seen tr := by
  induction houts with
  | refl => exact h
  | tail _ hout ih => exact hout.measured ih

end Conn

/-! ## Acknowledgements -/

section Acknowledgements

/-- What the connection passes to `update_rtt` on an acknowledgement, if it calls it. -/
def TCB.rttSample (t : TCB σ) (now : Nat) (ackNum : BitVec 32) : Option UInt32 :=
  if seqGt ackNum t.sndUna then
    NeuStack.rttSample now ackNum t.toTCBRtt t.retransmitQueue
  else none

/-- The entry `check_dup_ack` sends again. -/
def TCB.fastRetransmits [ICongestionControl σ] (t : TCB σ) (ackNum : BitVec 32) :
    Option RetransmitEntry :=
  match t.retransmitQueue with
  | [] => none
  | entry :: _ =>
    if ackNum = t.sndUna ∧ t.congestionControl.any (·.inFastRecovery) = false ∧
        t.dupAckCount + 1 = 3 ∧ 0 < entry.data.length then some entry
    else none

/-- Nothing of the measured segment is acknowledged, and no segment that ends where it
begins, unless that one was sent again. -/
def TCB.SparesMeasured (t : TCB σ) (ackNum : BitVec 32) : Prop :=
  seqLt t.rttSeq ackNum = false ∧ (seqGt ackNum t.sndUna = true →
    ∀ e ∈ removed ackNum t.retransmitQueue, e.seqStart ≠ t.rttSeq ∧
      (seqLe t.rttSeq e.seqEnd = true → e.retransmitCount ≠ 0))

/-- All of the measured segment is acknowledged, and the time fits into 32 bits. -/
def TCB.TakesMeasured (t : TCB σ) (now : Nat) (ackNum : BitVec 32) : Prop :=
  seqGt ackNum t.sndUna = true ∧ now - t.rttSendTime < 2 ^ 32 ∧
    ∀ e ∈ t.retransmitQueue, e.seqStart = t.rttSeq →
      e ∈ removed ackNum t.retransmitQueue ∧ seqLe t.rttSeq e.seqEnd = true ∧
        e.retransmitCount = 0

/-- **The acknowledgement does not disturb the measurement.** -/
structure TCB.Undisturbed [ICongestionControl σ] (t : TCB σ) (now : Nat) (ackNum : BitVec 32) :
    Prop where
  queued : ∃ e ∈ t.retransmitQueue, t.toTCBRtt.Measures e
  once : ∀ e ∈ t.fastRetransmits ackNum, e.seqStart ≠ t.rttSeq
  whole : t.SparesMeasured ackNum ∨ t.TakesMeasured now ackNum

variable {t : TCB σ} {now : Nat} {ackNum : BitVec 32} {log : List Happening}

instance (r : TCBRtt) : DecidablePred r.Measures := fun _ => inferInstanceAs (Decidable (_ ∧ _))

instance : Decidable (t.SparesMeasured ackNum) := inferInstanceAs (Decidable (_ ∧ _))

instance : Decidable (t.TakesMeasured now ackNum) := inferInstanceAs (Decidable (_ ∧ _ ∧ _))

instance [ICongestionControl σ] : Decidable (t.Undisturbed now ackNum) :=
  decidable_of_iff ((∃ e ∈ t.retransmitQueue, t.toTCBRtt.Measures e) ∧
      (∀ e ∈ (t.fastRetransmits ackNum).toList, e.seqStart ≠ t.rttSeq) ∧
      (t.SparesMeasured ackNum ∨ t.TakesMeasured now ackNum))
    ⟨fun h => ⟨h.1, fun e he => h.2.1 e (Option.mem_toList.mpr he), h.2.2⟩,
      fun h => ⟨h.queued, fun e he => h.once e (Option.mem_toList.mp he), h.whole⟩⟩

theorem TCB.rttSample_of_gt (hgt : seqGt ackNum t.sndUna = true) :
    t.rttSample now ackNum = NeuStack.rttSample now ackNum t.toTCBRtt t.retransmitQueue :=
  if_pos hgt

/-- An acknowledgement that leaves the measured segment alone gives no sample. -/
theorem TCB.SparesMeasured.rttSample (h : t.SparesMeasured ackNum) :
    t.rttSample now ackNum = none := by
  rw [TCB.rttSample]
  split
  · rename_i hgt
    exact rttSample_eq_none fun e he => (h.2 hgt e he).2
  · rfl

/-- One that takes it gives the time since it was sent. -/
theorem TCB.TakesMeasured.rttSample (h : t.TakesMeasured now ackNum)
    (hmeasuring : t.rttMeasuring = true) {e : RetransmitEntry} (he : e ∈ t.retransmitQueue)
    (hmeasures : t.toTCBRtt.Measures e) :
    e ∈ removed ackNum t.retransmitQueue ∧
      t.rttSample now ackNum = some (UInt32.ofNat (now - t.rttSendTime)) := by
  obtain ⟨hremoved, hle, hcount⟩ := h.2.2 e he hmeasures.1
  rw [TCB.rttSample_of_gt h.1]
  exact ⟨hremoved, rttSample_eq_some hmeasuring hremoved hle hcount⟩

variable [ICongestionControl σ]

/-- **The sample of an acknowledgement that does not disturb the measurement is genuine.** -/
theorem TCB.genuine_of_undisturbed (h : Measured t.toTCBRtt t.retransmitQueue log)
    (hok : t.rttMeasuring = true → t.Undisturbed now ackNum) {rttUs : UInt32}
    (hsample : t.rttSample now ackNum = some rttUs) : Genuine log now ackNum rttUs := by
  have hmeasuring : t.rttMeasuring = true := by
    rw [TCB.rttSample] at hsample
    split at hsample
    · exact measuring_of_rttSample hsample
    · cases hsample
  have hok := hok hmeasuring
  rcases hok.whole with hspares | htakes
  · rw [hspares.rttSample] at hsample
    cases hsample
  · obtain ⟨e₀, he₀, hmeasures₀⟩ := hok.queued
    rcases h hmeasuring with ⟨e, he, hmeasures, before, since, rfl, hsince⟩ | hnone
    · obtain ⟨hremoved, hsample'⟩ := htakes.rttSample hmeasuring he hmeasures
      rw [hsample', Option.some.injEq] at hsample
      refine ⟨before, e.sendTime, e.seqStart, e.seqEnd, since, rfl, ?_,
        seqLe_of_mem_removed hremoved, hsince⟩
      rw [← hsample, UInt32.toNat_ofNat_of_lt' htakes.2.1, hmeasures.2]
    · exact absurd hmeasures₀ (hnone e₀ he₀)

/-- What the loop makes of the measurement. -/
theorem Measured.trim (h : Measured t.toTCBRtt t.retransmitQueue log)
    (hgt : seqGt ackNum t.sndUna = true)
    (hok : t.rttMeasuring = true → t.Undisturbed now ackNum) (established : Bool)
    (rttUs : Option UInt32) :
    Measured (trimQueue now established ackNum t.toTCBRtt t.retransmitQueue).1
      (trimQueue now established ackNum t.toTCBRtt t.retransmitQueue).2
      (log ++ [.acked now ackNum rttUs]) := by
  cases hmeasuring : t.rttMeasuring with
  | false =>
    rw [trimQueue_of_idle established hmeasuring]
    exact measured_of_idle hmeasuring _ _
  | true =>
    have hok := hok hmeasuring
    obtain ⟨e₀, he₀, hmeasures₀⟩ := hok.queued
    rcases hok.whole with hspares | htakes
    · have hnone : t.rttSample now ackNum = none := hspares.rttSample
      rw [TCB.rttSample_of_gt hgt] at hnone
      rw [trimQueue_rtt, hnone]
      rcases h hmeasuring with ⟨e, he, hmeasures, htracked⟩ | hnone
      · refine fun _ => Or.inl ⟨e, ?_, hmeasures, htracked.append fun x hx => ?_⟩
        · exact mem_trimQueue_of_spared established he
            (fun hremoved => (hspares.2 hgt e hremoved).1 hmeasures.1)
            (hmeasures.1 ▸ hspares.1)
        · rw [List.mem_singleton.mp hx, hmeasures.1]
          exact hspares.1
      · exact absurd hmeasures₀ (hnone e₀ he₀)
    · obtain ⟨-, hsome⟩ := htakes.rttSample hmeasuring he₀ hmeasures₀
      rw [TCB.rttSample_of_gt hgt] at hsome
      refine measured_of_idle ?_ _ _
      rw [trimQueue_rtt, hsome]

end Acknowledgements

namespace Conn
variable [ICongestionControl σ] {env : Env} {c : Conn σ} {seen : List Happening} {tr : List Event}

omit [ICongestionControl σ] in
/-- A segment from the queue goes out again. -/
theorem Measured.rawSend (h : c.Measured env.now seen tr) {start : BitVec 32}
    (hstart : c.tcb.rttMeasuring = true → start ≠ c.tcb.rttSeq) (flags : UInt8)
    (data : List UInt8) : (c.rawSend flags start data).Measured env.now seen tr := by
  rw [Conn.rawSend]
  split
  · exact h
  · obtain ⟨evs, htr, hmeasured⟩ := h
    refine ⟨evs ++ [.sent c.ptr .raw (c.tcb.segment flags start data)], ?_, ?_⟩
    · rw [Conn.log, htr, List.append_assoc]
    · rw [happenings_concat_of_some (x := .resent start) rfl, ← List.append_assoc]
      refine hmeasured.spared fun hmeasuring x hx => ?_
      rw [List.mem_singleton.mp hx]
      exact hstart hmeasuring

/-- `check_dup_ack`, if it does not send the measured segment again. -/
theorem Measured.checkDupAck (h : c.Measured env.now seen tr) {ackNum : BitVec 32}
    (honce : c.tcb.rttMeasuring = true → ∀ e ∈ c.tcb.fastRetransmits ackNum,
      e.seqStart ≠ c.tcb.rttSeq) :
    (c.checkDupAck ackNum).Measured env.now seen tr := by
  rw [TCB.fastRetransmits] at honce
  rw [Conn.checkDupAck]
  cases hq : c.tcb.retransmitQueue with
  | nil => exact h
  | cons entry rest =>
    rw [hq] at honce
    dsimp only at honce ⊢
    split
    · exact h
    rename_i hdup
    split
    · exact h
    rename_i hrecovery
    split
    · rename_i hthird
      have hloss : Measured env.now seen tr { c with tcb := { c.tcb with
          packetsLostPeriod := c.tcb.packetsLostPeriod + 1
          congestionControl := c.tcb.congestionControl.map (·.onLoss 0)
          dupAckCount := 0 } } := h
      split
      · rename_i hdata
        rw [if_pos ⟨not_not.mp hdup, Bool.not_eq_true _ ▸ hrecovery, hthird, hdata⟩] at honce
        exact hloss.rawSend (fun hmeasuring => honce hmeasuring entry rfl) _ _
      · exact hloss
    · exact h

theorem checkDupAck_of_ne {ackNum : BitVec 32} (hne : ackNum ≠ c.tcb.sndUna) :
    c.checkDupAck ackNum = c := by
  rw [Conn.checkDupAck]
  split
  · rfl
  · exact if_pos hne

omit [ICongestionControl σ] in
theorem measured_of_tcb {seen : List Happening} (time : Nat)
    (h : NeuStack.Measured c.tcb.toTCBRtt c.tcb.retransmitQueue seen) :
    c.Measured time seen c.trace := by
  refine ⟨[], (List.append_nil _).symm, ?_⟩
  rw [happenings, List.filterMap_nil, List.append_nil]
  exact h

/-- `process_ack`, once it has taken over the window. -/
theorem measured_acknowledge (h : NeuStack.Measured c.tcb.toTCBRtt c.tcb.retransmitQueue seen)
    {ackNum : BitVec 32} (hok : c.tcb.rttMeasuring = true → c.tcb.Undisturbed env.now ackNum)
    (opens : Prop) [Decidable opens] : Conn.Measured env.now
      (seen ++ [.acked env.now ackNum (c.tcb.rttSample env.now ackNum)]) c.trace
      (if !seqGt ackNum (c.checkDupAck ackNum).tcb.sndUna then
        if opens then (c.checkDupAck ackNum).sendBufferedData env else c.checkDupAck ackNum
      else (((c.checkDupAck ackNum).advance env ackNum).sendBufferedData env).sample env) := by
  obtain ⟨cc, sampling, dup, htcb⟩ := checkDupAck_tcb c ackNum
  have huna : (c.checkDupAck ackNum).tcb.sndUna = c.tcb.sndUna := by rw [htcb]
  rw [huna]
  cases hgt : seqGt ackNum c.tcb.sndUna with
  | true =>
    rw [Bool.not_true, if_neg Bool.false_ne_true]
    have hne : ackNum ≠ c.tcb.sndUna := by
      rintro rfl
      have hpos := ((seqGt_iff _ _).mp hgt).1
      rw [BitVec.sub_self] at hpos
      exact absurd hpos (Nat.lt_irrefl 0)
    rw [checkDupAck_of_ne hne]
    have htrim := measured_of_tcb (c := c.advance env ackNum) env.now
      (h.trim hgt hok (c.tcb.state == .established) (c.tcb.rttSample env.now ackNum))
    exact (outs_sample _).measured ((outs_sendBufferedData _).measured htrim)
  | false =>
    rw [Bool.not_false, if_pos rfl]
    have hspares : c.tcb.rttMeasuring = true → ∀ x ∈ [Happening.acked env.now ackNum
        (c.tcb.rttSample env.now ackNum)], x.Spares c.tcb.rttSeq := by
      intro hmeasuring x hx
      rw [List.mem_singleton.mp hx]
      rcases (hok hmeasuring).whole with hspares | htakes
      · exact hspares.1
      · rw [htakes.1] at hgt
        cases hgt
    have hspared := measured_of_tcb (c := c) env.now (h.spared hspares)
    have hdup := hspared.checkDupAck fun hmeasuring => (hok hmeasuring).once
    split
    · exact (outs_sendBufferedData _).measured hdup
    · exact hdup

/-- **`process_ack`.** -/
theorem measured_processAck (h : NeuStack.Measured c.tcb.toTCBRtt c.tcb.retransmitQueue seen)
    {ackNum : BitVec 32} (hok : c.tcb.rttMeasuring = true → c.tcb.Undisturbed env.now ackNum)
    (window : UInt16) : (c.processAck env ackNum window).Measured env.now
      (seen ++ [.acked env.now ackNum (c.tcb.rttSample env.now ackNum)]) c.trace :=
  measured_acknowledge (c := { c with tcb := { c.tcb with sndWnd := window.toNat } }) h
    (fun hmeasuring => ⟨(hok hmeasuring).queued, (hok hmeasuring).once, (hok hmeasuring).whole⟩)
    (c.tcb.sndWnd = 0 ∧ 0 < window)

/-! ## Retransmission by timeout -/

omit [ICongestionControl σ] in
theorem measured_countRetransmit (time : Nat)
    (h : NeuStack.Measured c.tcb.toTCBRtt c.tcb.retransmitQueue seen) :
    c.countRetransmit.Measured time seen c.trace := by
  rw [countRetransmit]
  cases hq : c.tcb.retransmitQueue with
  | nil => exact measured_of_tcb time h
  | cons entry rest =>
    rw [hq] at h
    exact measured_of_tcb (c := ⟨c.ptr, _, c.trace⟩) time (h.head _ _)

omit [ICongestionControl σ] in
theorem measured_idle (hidle : c.tcb.rttMeasuring = false) (time : Nat) (seen : List Happening) :
    c.Measured time seen c.trace :=
  measured_of_tcb time (measured_of_idle hidle _ _)

omit [ICongestionControl σ] in
theorem measured_rawSend_of_idle (hidle : c.tcb.rttMeasuring = false) (flags : UInt8)
    (start : BitVec 32) (data : List UInt8) :
    (c.rawSend flags start data).Measured env.now seen c.trace := by
  refine (measured_idle hidle env.now seen).rawSend (fun hmeasuring => ?_) flags data
  rw [hidle] at hmeasuring
  cases hmeasuring

omit [ICongestionControl σ] in
/-- No measurement outlives a retransmission by timeout. -/
theorem measured_retransmit (h : NeuStack.Measured c.tcb.toTCBRtt c.tcb.retransmitQueue seen) :
    (c.retransmit env).Measured env.now seen c.trace := by
  rw [retransmit]
  split
  · exact measured_of_tcb env.now h
  · dsimp only
    split
    · exact measured_rawSend_of_idle (c := ⟨c.ptr, _, c.trace⟩) rfl _ _ _
    · split
      · exact measured_rawSend_of_idle (c := ⟨c.ptr, _, c.trace⟩) rfl _ _ _
      · exact measured_idle (c := ⟨c.ptr, _, c.trace⟩) rfl _ _

end Conn

end NeuStack
