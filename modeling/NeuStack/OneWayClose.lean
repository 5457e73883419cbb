import NeuStack.ManagerEvents

/-! # Closing is one-way

A connection that has sent its FIN sends no other one and no new data, and moves along
the state diagram of RFC 793 (`OneWay`).  Two things upset this, both because a function
goes on with the state it was entered in: `handle_established` takes in the peer's FIN
after an acknowledgement or a callback has sent the FIN of the host, and goes back to
`CLOSE_WAIT`; and `close()` goes on to its own FIN after its drain has sent the one of an earlier
`close()` (`Undisturbed`).  They are all: closing is one-way exactly without them.
-/
namespace NeuStack
variable {σ : Type}

/-- The states the FIN has been sent in. -/
def TCPState.finSent : TCPState → Bool
  | .finWait1 | .finWait2 | .closing | .lastAck | .timeWait => true
  | _ => false

/-- The arrows of the state diagram of RFC 793.  Where the diagram has LISTEN go to
SYN-RECEIVED, a listener here stays and a new TCB takes that arrow; FIN-WAIT-1 goes
to TIME-WAIT when a segment brings both the FIN and the acknowledgement; and a reset or a
time-out leads to CLOSED from everywhere. -/
def TCPState.arrow : TCPState → TCPState → Bool
  | _, .closed => true
  | .closed, .listen | .closed, .synSent | .closed, .synRcvd => true
  | .listen, .synSent | .listen, .synRcvd => true
  | .synSent, .synRcvd | .synSent, .established => true
  | .synRcvd, .established | .synRcvd, .finWait1 => true
  | .established, .finWait1 | .established, .closeWait => true
  | .finWait1, .finWait2 | .finWait1, .closing | .finWait1, .timeWait => true
  | .finWait2, .timeWait | .closing, .timeWait => true
  | .closeWait, .lastAck => true
  | _, _ => false

/-! ## What the events show -/

/-- A FIN of the connection at `p`, sent for the first time. -/
def Event.isFin (p : Ptr) : Event → Bool
  | .sent q .segment seg => q == p && seg.isFin
  | _ => false

/-- Data of the connection at `p`, sent for the first time: in a segment, or as the byte of a
zero-window probe. -/
def Event.isNewData (p : Ptr) : Event → Bool
  | .sent _ .raw _ => false
  | .sent q _ seg => q == p && seg.data != []
  | _ => false

/-- Where the connection at `p` goes, the diagram has an arrow. -/
def Event.followsArrow (p : Ptr) : Event → Bool
  | .moved q s s' => q != p || s.arrow s'
  | _ => true

/-- A function of the connection at `p` goes on with a state that it is no longer in. -/
def Event.disturbs (p : Ptr) : Event → Bool
  | .finReceived q handler actual => q == p && handler != actual
  | .finishing q entered actual => q == p && entered != actual
  | _ => false

/-- **Closing is one-way** for the connection at `p`. -/
structure OneWay (p : Ptr) (tr : List Event) : Prop where
  oneFin : tr.countP (Event.isFin p) ≤ 1
  finLast : tr.Pairwise fun ev ev' => ev.isFin p = true → ev'.isNewData p = false
  noReturn : ∀ s s', .moved p s s' ∈ tr → s.finSent = true → s'.canSend = false
  arrows : ∀ ev ∈ tr, ev.followsArrow p = true

/-- No function goes on with a state that the connection is no longer in. -/
def Undisturbed (p : Ptr) (tr : List Event) : Prop := ∀ ev ∈ tr, ev.disturbs p = false

variable {p q : Ptr} {ev : Event} {tr tr' evs : List Event}

theorem TCPState.canSend_of_arrow {s s' : TCPState} (h : s.arrow s' = true)
    (hs : s.finSent = true) : s'.canSend = false := by
  cases s <;> cases hs <;> cases s' <;> first | rfl | cases h

theorem OneWay.of_prefix (h : OneWay p tr') (hpre : tr <+: tr') : OneWay p tr where
  oneFin := Nat.le_trans (hpre.sublist.countP_le) h.oneFin
  finLast := h.finLast.sublist hpre.sublist
  noReturn s s' hev := h.noReturn s s' (hpre.subset hev)
  arrows ev hev := h.arrows ev (hpre.subset hev)

/-- What the events of a connection do to it, FIN and disturbance apart. -/
structure Event.Lawful (p : Ptr) (ev : Event) : Prop where
  noFin : ev.isFin p = false
  arrow : ev.followsArrow p = true
  calm : ev.disturbs p = false

theorem Event.lawful_of_ptr (h : ev.ptr ≠ some p) : ev.Lawful p ∧ ev.isNewData p = false := by
  have hne : ∀ q : Ptr, some q ≠ some p → (q == p) = false := fun q hq =>
    beq_eq_false_iff_ne.mpr fun heq => hq (congrArg some heq)
  cases ev with
  | sent q path seg =>
    have hq := hne q h
    cases path <;>
      exact ⟨⟨by simp [Event.isFin, hq], rfl, rfl⟩, by simp [Event.isNewData, hq]⟩
  | moved q s s' => exact ⟨⟨rfl, by simp [Event.followsArrow, bne, hne q h], rfl⟩, rfl⟩
  | finReceived q s s' => exact ⟨⟨rfl, rfl, by simp [Event.disturbs, hne q h]⟩, rfl⟩
  | finishing q s s' => exact ⟨⟨rfl, rfl, by simp [Event.disturbs, hne q h]⟩, rfl⟩
  | _ => exact ⟨⟨rfl, rfl, rfl⟩, rfl⟩

/-- Lawful events, and data only before the FIN, keep closing one-way. -/
theorem OneWay.lawful (h : OneWay p tr) (hevs : ∀ ev ∈ evs, ev.Lawful p)
    (hdata : tr.countP (Event.isFin p) = 0 ∨ ∀ ev ∈ evs, ev.isNewData p = false) :
    OneWay p (tr ++ evs) ∧ (tr ++ evs).countP (Event.isFin p) = tr.countP (Event.isFin p) := by
  have hnone : evs.countP (Event.isFin p) = 0 :=
    List.countP_eq_zero.mpr fun ev hev => by simp [(hevs ev hev).noFin]
  have hcount : (tr ++ evs).countP (Event.isFin p) = tr.countP (Event.isFin p) := by
    rw [List.countP_append, hnone, Nat.add_zero]
  refine ⟨⟨hcount ▸ h.oneFin, ?_, fun s s' hev hs => ?_, fun ev hev => ?_⟩, hcount⟩
  · rw [List.pairwise_append]
    refine ⟨h.finLast, ?_, fun ev hev ev' hev' hfin => ?_⟩
    · refine List.pairwise_of_forall_mem_list fun ev hev ev' _ hfin => ?_
      rw [(hevs ev hev).noFin] at hfin
      cases hfin
    · rcases hdata with hzero | hdata
      · exact absurd hfin (by simpa using List.countP_eq_zero.mp hzero ev hev)
      · exact hdata ev' hev'
  · rcases List.mem_append.mp hev with hold | hnew
    · exact h.noReturn s s' hold hs
    · have harrow := (hevs _ hnew).arrow
      simp only [Event.followsArrow, bne_self_eq_false, Bool.false_or] at harrow
      exact TCPState.canSend_of_arrow harrow hs
  · rcases List.mem_append.mp hev with hold | hnew
    · exact h.arrows ev hold
    · exact (hevs ev hnew).arrow

/-! ## Where a connection is -/

/-- Nothing more will be sent. -/
def TCPState.shut (s : TCPState) : Bool := s.finSent || s == .closed

/-- Without a FIN of its own, a connection neither gets to the states behind the FIN nor
out of them. -/
def TCPState.abides (s s' : TCPState) : Bool := (s.finSent || !s'.finSent) && (!s.shut || s'.shut)

theorem TCPState.abides_refl (s : TCPState) : s.abides s = true := by
  cases s <;> rfl

theorem TCPState.abides_iff {s s' : TCPState} : s.abides s' = true ↔
    (s.finSent = false → s'.finSent = false) ∧ (s.shut = true → s'.shut = true) := by
  cases s <;> cases s' <;> decide

theorem TCPState.canSend_of_shut {s : TCPState} (h : s.shut = true) : s.canSend = false := by
  cases s <;> first | rfl | cases h

/-- **The three ways a connection can stand.** -/
inductive Standing (p : Ptr) (t : Option (TCB σ)) (tr : List Event) : Prop
  | unsent (hcalm : Undisturbed p tr) (h : OneWay p tr) (hfin : tr.countP (Event.isFin p) = 0)
      (hs : ∀ u, t = some u → u.state.finSent = false)
  | sent (hcalm : Undisturbed p tr) (h : OneWay p tr) (hfin : tr.countP (Event.isFin p) = 1)
      (hs : ∀ u, t = some u → u.sendBuffer.empty = true ∧ u.state.shut = true)
  | upset (hcalm : ¬ Undisturbed p tr) (h : ¬ OneWay p tr)

/-- Nothing sets right what has been upset. -/
theorem Standing.upset_mono {t : Option (TCB σ)} (hcalm : ¬ Undisturbed p tr)
    (h : ¬ OneWay p tr) (hpre : tr <+: tr') : Standing p t tr' :=
  .upset (fun hcalm' => hcalm fun ev hev => hcalm' ev (hpre.subset hev))
    fun h' => h (h'.of_prefix hpre)

/-- What a lawful step may make of the TCB. -/
structure TCB.Abides (u u' : TCB σ) : Prop where
  state : u.state.abides u'.state = true
  buffer : u.state.canSend = false → u.sendBuffer.empty = true → u'.sendBuffer.empty = true

theorem TCB.Abides.of_eq {u u' : TCB σ} (hs : u'.state = u.state)
    (hbuf : u'.sendBuffer = u.sendBuffer) : u.Abides u' :=
  ⟨hs ▸ TCPState.abides_refl _, fun _ hempty => hbuf ▸ hempty⟩

theorem TCB.Abides.refl (u : TCB σ) : u.Abides u := .of_eq rfl rfl

theorem Standing.lawful {t t' : Option (TCB σ)} (h : Standing p t tr)
    (hevs : ∀ ev ∈ evs, ev.Lawful p)
    (hdata : (∀ ev ∈ evs, ev.isNewData p = false) ∨
      ∃ u, t = some u ∧ (u.sendBuffer.empty = false ∨ u.state.canSend = true))
    (ht : ∀ u', t' = some u' → ∃ u, t = some u ∧ u.Abides u') :
    Standing p t' (tr ++ evs) := by
  have hcalm : Undisturbed p tr → Undisturbed p (tr ++ evs) := by
    intro hold ev hev
    rcases List.mem_append.mp hev with hev | hev
    · exact hold ev hev
    · exact (hevs ev hev).calm
  cases h with
  | unsent hold h hfin hs =>
    obtain ⟨h', hcount⟩ := h.lawful hevs (Or.inl hfin)
    refine .unsent (hcalm hold) h' (hcount.trans hfin) fun u' hu' => ?_
    obtain ⟨u, hu, habides⟩ := ht u' hu'
    exact (TCPState.abides_iff.mp habides.state).1 (hs u hu)
  | sent hold h hfin hs =>
    have hdry : ∀ ev ∈ evs, ev.isNewData p = false := by
      rcases hdata with hdata | ⟨u, hu, hbuf | hcan⟩
      · exact hdata
      · rw [(hs u hu).1] at hbuf
        cases hbuf
      · rw [TCPState.canSend_of_shut (hs u hu).2] at hcan
        cases hcan
    obtain ⟨h', hcount⟩ := h.lawful hevs (Or.inr hdry)
    refine .sent (hcalm hold) h' (hcount.trans hfin) fun u' hu' => ?_
    obtain ⟨u, hu, habides⟩ := ht u' hu'
    obtain ⟨hbuf, hshut⟩ := hs u hu
    exact ⟨habides.buffer (TCPState.canSend_of_shut hshut) hbuf,
      (TCPState.abides_iff.mp habides.state).2 hshut⟩
  | upset hcalm h => exact upset_mono hcalm h (List.prefix_append ..)

/-- The FIN is sent. -/
theorem OneWay.fin (h : OneWay p tr) (hfin : tr.countP (Event.isFin p) = 0) {seg : TCPSegment}
    (hseg : seg.isFin = true) (hdata : seg.data = []) :
    OneWay p (tr ++ [Event.sent p .segment seg]) ∧
      (tr ++ [Event.sent p .segment seg]).countP (Event.isFin p) = 1 := by
  have hcount : (tr ++ [Event.sent p .segment seg]).countP (Event.isFin p) = 1 := by
    rw [List.countP_append, hfin]
    simp [Event.isFin, hseg]
  refine ⟨⟨Nat.le_of_eq hcount, ?_, fun s s' hev hs => ?_, fun ev hev => ?_⟩, hcount⟩
  · rw [List.pairwise_append]
    refine ⟨h.finLast, List.pairwise_singleton _ _, fun ev hev ev' hev' _ => ?_⟩
    rw [List.mem_singleton.mp hev']
    simp [Event.isNewData, hdata]
  · rcases List.mem_append.mp hev with hold | hnew
    · exact h.noReturn s s' hold hs
    · cases List.mem_singleton.mp hnew
  · rcases List.mem_append.mp hev with hold | hnew
    · exact h.arrows ev hold
    · rw [List.mem_singleton.mp hnew]
      rfl

/-- A connection that may still send sends its FIN, in due form. -/
theorem Standing.fin {t : TCB σ} {t' : Option (TCB σ)} (h : Standing p (some t) tr)
    (hcan : t.state.canSend = true) {pre : List Event}
    (hpre : ∀ ev ∈ pre, ev.Lawful p ∧ ev.isNewData p = false) {seg : TCPSegment}
    (hseg : seg.isFin = true) (hdata : seg.data = [])
    (ht : ∀ u, t' = some u → u.sendBuffer.empty = true ∧ u.state.finSent = true) :
    Standing p t' (tr ++ pre ++ [.sent p .segment seg] ++ [.moved p t.state t.state.afterFin]) := by
  have hbefore : Standing p (some t) (tr ++ pre) :=
    h.lawful (fun ev hev => (hpre ev hev).1) (Or.inl fun ev hev => (hpre ev hev).2)
      fun u hu => ⟨u, hu, .refl u⟩
  generalize tr ++ pre = tr₁ at hbefore
  cases hbefore with
  | unsent hcalm h hfin =>
    obtain ⟨h', hcount⟩ := h.fin hfin hseg hdata
    have harrow : ∀ ev ∈ [Event.moved p t.state t.state.afterFin],
        ev.Lawful p ∧ ev.isNewData p = false := by
      intro ev hev
      rw [List.mem_singleton.mp hev]
      refine ⟨⟨rfl, ?_, rfl⟩, rfl⟩
      have hs := hcan
      generalize t.state = s at hs
      cases s <;> first | exact Bool.or_true _ | cases hs
    obtain ⟨h'', hcount'⟩ := h'.lawful (fun ev hev => (harrow ev hev).1)
      (Or.inr fun ev hev => (harrow ev hev).2)
    refine .sent (fun ev hev => ?_) h'' (hcount'.trans hcount) fun u hu => ⟨(ht u hu).1, ?_⟩
    · simp only [List.mem_append, List.mem_singleton] at hev
      rcases hev with (hev | rfl) | rfl
      · exact hcalm ev hev
      · rfl
      · rfl
    · rw [TCPState.shut, (ht u hu).2, Bool.true_or]
  | sent hcalm h hfin hs =>
    rw [TCPState.canSend_of_shut (hs t rfl).2] at hcan
    cases hcan
  | upset hcalm h =>
    rw [List.append_assoc]
    exact upset_mono hcalm h (List.prefix_append ..)

/-- A second FIN upsets. -/
theorem Standing.again {t : TCB σ} {t' : Option (TCB σ)} (h : Standing p (some t) tr)
    (hsent : t.state.finSent = true) {entered : TCPState} (hne : entered ≠ t.state)
    {seg : TCPSegment} (hseg : seg.isFin = true) :
    Standing p t' (tr ++ [.finishing p entered t.state, .sent p .segment seg] ++ evs) := by
  cases h with
  | unsent hcalm h hfin hs =>
    rw [hs t rfl] at hsent
    cases hsent
  | sent hcalm h hfin hs =>
    refine upset_mono (fun hcalm' => ?_) (fun h' => ?_) (List.prefix_append _ evs)
    · have hdisturbs := hcalm' (.finishing p entered t.state) (by simp)
      simp [Event.disturbs, hne] at hdisturbs
    · have htwo := h'.oneFin
      rw [List.countP_append, hfin] at htwo
      simp [Event.isFin, hseg] at htwo
  | upset hcalm h =>
    rw [List.append_assoc]
    exact upset_mono hcalm h (List.prefix_append ..)

namespace Conn
variable {c c' : Conn σ} {x : Option TCPSegment}

/-- A change of the TCB, and events, that closing does not look at. -/
theorem standing_of_same (hptr : c.ptr = p) (h : Standing p (some c.tcb) c.trace) {t : TCB σ}
    (hs : t.state = c.tcb.state)
    (hbuf : c.tcb.state.canSend = false → c.tcb.sendBuffer.empty = true →
      t.sendBuffer.empty = true)
    (evs : List Event) (hevs : ∀ ev ∈ evs, ev.Lawful c.ptr)
    (hdata : (∀ ev ∈ evs, ev.isNewData c.ptr = false) ∨ c.tcb.sendBuffer.empty = false ∨
      c.tcb.state.canSend = true) : Standing p (some t) (c.trace ++ evs) := by
  subst hptr
  refine h.lawful hevs (hdata.imp id fun hdata => ⟨c.tcb, rfl, hdata⟩)
    fun u hu => ⟨c.tcb, rfl, ?_⟩
  rw [← Option.some.inj hu]
  exact ⟨hs ▸ TCPState.abides_refl _, hbuf⟩

theorem standing_tcb (hptr : c.ptr = p) (h : Standing p (some c.tcb) c.trace) {t : TCB σ}
    (hs : t.state = c.tcb.state)
    (hbuf : c.tcb.state.canSend = false → c.tcb.sendBuffer.empty = true →
      t.sendBuffer.empty = true) : Standing p (some t) c.trace := by
  have hsame := standing_of_same hptr h hs hbuf []
    (fun _ hev => absurd hev List.not_mem_nil) (Or.inl fun _ hev => absurd hev List.not_mem_nil)
  rwa [List.append_nil] at hsame

theorem standing_log (hptr : c.ptr = p) (h : Standing p (some c.tcb) c.trace) (ev : Event)
    (hev : ev.Lawful c.ptr)
    (hdata : ev.isNewData c.ptr = false ∨ c.tcb.sendBuffer.empty = false) :
    Standing p (some c.tcb) (c.trace ++ [ev]) := by
  refine standing_of_same hptr h rfl (fun _ => id) [ev] (fun ev' hev' => ?_)
    (hdata.imp (fun hdata ev' hev' => ?_) Or.inl)
  · rw [List.mem_singleton.mp hev']
    exact hev
  · rw [List.mem_singleton.mp hev']
    exact hdata

theorem standing_sendSegment (hptr : c.ptr = p) (h : Standing p (some c.tcb) c.trace) (env : Env)
    (flags : UInt8) (hfin : TCPFlags.has flags TCPFlags.fin = false) (data : List UInt8)
    (hdata : data = [] ∨ c.tcb.sendBuffer.empty = false ∨ c.tcb.state.canSend = true) :
    Standing p (some (c.sendSegment env flags data).tcb) (c.sendSegment env flags data).trace := by
  have hevs : ∃ evs, (c.sendSegment env flags data).trace = c.trace ++ evs ∧
      ∀ ev ∈ evs, ev.Lawful c.ptr ∧ (data = [] → ev.isNewData c.ptr = false) := by
    unfold sendSegment
    split
    · exact ⟨[], (List.append_nil _).symm, fun _ hev => absurd hev List.not_mem_nil⟩
    · refine ⟨_, rfl, fun ev hev => ?_⟩
      rw [List.mem_singleton.mp hev]
      refine ⟨⟨?_, rfl, rfl⟩, fun hnil => ?_⟩
      · simp [Event.isFin, TCPSegment.isFin, TCB.segment, hfin]
      · simp [Event.isNewData, TCB.segment, hnil]
  obtain ⟨evs, htrace, hevs⟩ := hevs
  rw [htrace]
  refine standing_of_same hptr h (sendSegment_state ..) (fun _ hempty => ?_) evs
    (fun ev hev => (hevs ev hev).1) (hdata.imp (fun hnil ev hev => (hevs ev hev).2 hnil) id)
  rw [sendSegment_sendBuffer]
  exact hempty

theorem standing_rawSend (hptr : c.ptr = p) (h : Standing p (some c.tcb) c.trace) (flags : UInt8)
    (seq : BitVec 32) (data : List UInt8) :
    Standing p (some (c.rawSend flags seq data).tcb) (c.rawSend flags seq data).trace := by
  unfold rawSend
  split
  · exact h
  · exact standing_log hptr h _ ⟨rfl, rfl, rfl⟩ (Or.inl rfl)

theorem finSent_afterFin {s : TCPState} (h : s.canSend = true) : s.afterFin.finSent = true := by
  cases s <;> first | rfl | cases h

theorem isFin_segment (t : TCB σ) (seq : BitVec 32) :
    (t.segment (TCPFlags.fin ||| TCPFlags.ack) seq []).isFin = true := by
  show TCPFlags.has (TCPFlags.fin ||| TCPFlags.ack) TCPFlags.fin = true
  decide

/-- The FIN, with the state it leads to. -/
theorem standing_fin (hptr : c.ptr = p) (h : Standing p (some c.tcb) c.trace) (env : Env)
    (hs : c.tcb.state.canSend = true) (hbuf : c.tcb.sendBuffer.empty = true) (pre : List Event)
    (hpre : ∀ ev ∈ pre, ev.Lawful c.ptr ∧ ev.isNewData c.ptr = false) :
    Standing p (some ((({ c with trace := c.trace ++ pre }.sendSegment env
      (TCPFlags.fin ||| TCPFlags.ack) []).setState c.tcb.state.afterFin).tcb))
      (({ c with trace := c.trace ++ pre }.sendSegment env (TCPFlags.fin ||| TCPFlags.ack)
        []).setState c.tcb.state.afterFin).trace := by
  subst hptr
  rw [sendSegment_fin]
  refine h.fin hs hpre (isFin_segment c.tcb c.tcb.sndNxt) rfl fun u hu => ?_
  rw [← Option.some.inj hu]
  exact ⟨hbuf, finSent_afterFin hs⟩

variable [ICongestionControl σ]

/-- **What a move of the connection means for closing.** -/
theorem Move.standing (hmove : Move x c c') (hptr : c.ptr = p)
    (h : Standing p (some c.tcb) c.trace) : Standing p (some c'.tcb) c'.trace := by
  cases hmove with
  | sampled => exact standing_log hptr h _ ⟨rfl, rfl, rfl⟩ (Or.inl rfl)
  | resend => exact standing_rawSend hptr h _ _ _
  | resendBare => exact standing_rawSend hptr h _ _ _
  | probe _ _ hbuf =>
    unfold sendZeroWindowProbe
    split
    · exact h
    · exact standing_log hptr h _ ⟨rfl, rfl, rfl⟩ (Or.inr hbuf)
  | ack env => exact standing_sendSegment hptr h env _ rfl [] (Or.inl rfl)
  | delayedAck env =>
    have hacked := standing_sendSegment hptr h env TCPFlags.ack rfl [] (Or.inl rfl)
    exact standing_tcb (c := c.sendSegment env TCPFlags.ack []) ((sendSegment_ptr ..).trans hptr)
      hacked rfl fun _ => id
  | drain env _ hbuf =>
    have hsent := standing_sendSegment hptr h env (TCPFlags.ack ||| TCPFlags.psh) rfl
      (c.tcb.sendBuffer.peekContiguous.take (chunk c.tcb)) (Or.inr (Or.inl hbuf))
    refine standing_tcb ((sendSegment_ptr ..).trans hptr) hsent rfl fun _ hempty => ?_
    rw [sendSegment_sendBuffer, hbuf] at hempty
    cases hempty
  | bufferData _ data hs =>
    have hlog := standing_log hptr h (.accepted c.ptr data) ⟨rfl, rfl, rfl⟩ (Or.inl rfl)
    refine standing_tcb (c := c.log (.accepted c.ptr data)) hptr hlog rfl fun hcan => ?_
    rw [log_tcb, hs] at hcan
    cases hcan
  | transmitData env _ data n hs =>
    have hlog := standing_log hptr h (.accepted c.ptr data) ⟨rfl, rfl, rfl⟩ (Or.inl rfl)
    have hsent := standing_sendSegment (c := c.log (.accepted c.ptr data)) hptr hlog env
      (TCPFlags.ack ||| TCPFlags.psh) rfl (data.take n) (Or.inr (Or.inr hs))
    refine standing_tcb ((sendSegment_ptr env _ _ (c.log _)).trans hptr) hsent rfl fun hcan => ?_
    rw [sendSegment_state, log_tcb, hs] at hcan
    cases hcan
  | deferredFin env _ hs hbuf =>
    have hdropped := standing_tcb hptr h (t := { c.tcb with closePending := false }) rfl
      fun _ => id
    have hfin := standing_fin (c := { c with tcb := { c.tcb with closePending := false } }) hptr
      hdropped env hs hbuf [] (fun _ hev => absurd hev List.not_mem_nil)
    dsimp only at hfin
    rwa [List.append_nil] at hfin
  | finish env _ s hs hactual hbuf =>
    rcases hactual with hactual | hactual
    · subst hactual
      refine standing_fin hptr h env hs hbuf [.finishing c.ptr c.tcb.state c.tcb.state]
        fun ev hev => ?_
      rw [List.mem_singleton.mp hev]
      exact ⟨⟨rfl, rfl, by simp [Event.disturbs]⟩, rfl⟩
    · subst hptr
      have hne : s ≠ c.tcb.state := by
        rw [hactual]
        rintro heq
        rw [heq, TCPState.canSend_afterFin] at hs
        cases hs
      have hagain : Standing c.ptr (some ((((c.log (.finishing c.ptr s c.tcb.state)).sendSegment env
          (TCPFlags.fin ||| TCPFlags.ack) []).setState s.afterFin).tcb)) (c.trace ++
            [.finishing c.ptr s c.tcb.state, .sent c.ptr .segment
              (c.tcb.segment (TCPFlags.fin ||| TCPFlags.ack) c.tcb.sndNxt [])] ++
            [.moved c.ptr c.tcb.state s.afterFin]) :=
        h.again (hactual ▸ finSent_afterFin hs) hne (isFin_segment c.tcb c.tcb.sndNxt)
      rw [sendSegment_fin] at hagain ⊢
      simpa [setState, log, TCB.enqueue, TCB.countSent] using hagain
  | _ => exact standing_tcb hptr h rfl fun _ => id

theorem Path.standing (hpath : Path x c c') (hptr : c.ptr = p)
    (h : Standing p (some c.tcb) c.trace) : Standing p (some c'.tcb) c'.trace := by
  induction hpath with
  | refl => exact h
  | tail hpath hmove ih => exact hmove.standing ((Path.ptr hpath).trans hptr) ih

end Conn

namespace TCPConnectionManager
variable {m m' o : TCPConnectionManager σ} {t : TCB σ} {k : TCPTuple}

/-- How the connection at `p` stands. -/
def Stands (m : TCPConnectionManager σ) (p : Ptr) : Prop := Standing p (m.heap p) m.trace

/-! ## Operations -/

/-- Lawful events without data; the TCB follows, or is gone. -/
theorem Stands.lawful (h : m.Stands p)
    (htrace : Grows (fun ev => ev.Lawful p ∧ ev.isNewData p = false) m.trace m'.trace)
    (hheap : ∀ u', m'.heap p = some u' → ∃ u, m.heap p = some u ∧ u.Abides u') :
    m'.Stands p := by
  obtain ⟨evs, htrace, hevs⟩ := htrace
  rw [Stands, htrace]
  exact Standing.lawful h (fun ev hev => (hevs ev hev).1)
    (Or.inl fun ev hev => (hevs ev hev).2) hheap

theorem Stands.of_heap (h : m.Stands p) (htrace : m'.trace = m.trace)
    (hheap : ∀ u, m'.heap p = some u → m.heap p = some u) : m'.Stands p :=
  h.lawful (htrace ▸ .refl _) fun u hu => ⟨u, hheap u hu, .refl u⟩

theorem Stands.log (h : m.Stands p) (hev : ev.Lawful p) (hdata : ev.isNewData p = false) :
    (m.log ev).Stands p := h.lawful (.single ⟨hev, hdata⟩) fun u hu => ⟨u, hu, .refl u⟩

/-- What the connection at `q` did is in order. -/
theorem Stands.store (h : m.Stands p) (hq : m.heap q = some t) {c : Conn σ} (hptr : c.ptr = q)
    (htrace : Grows (fun ev => ev.ptr = some q) m.trace c.trace)
    (hself : Standing q (some t) m.trace → Standing q (some c.tcb) c.trace) :
    (m.store c).Stands p := by
  subst hptr
  rcases eq_or_ne p c.ptr with rfl | hne
  · rw [Stands, store_heap_self]
    exact hself (hq ▸ h)
  · refine h.lawful (htrace.mono fun ev hev => Event.lawful_of_ptr ?_) fun u hu =>
      ⟨u, (store_heap_ne m hne).symm.trans hu, .refl u⟩
    rw [hev]
    exact fun heq => hne (Option.some.inj heq).symm

/-- The usual case: lawful events, and a TCB that follows. -/
theorem Stands.turn (h : m.Stands p) (hq : m.heap q = some t) {t' : TCB σ}
    (htrace : Grows (fun ev => ev.ptr = some q ∧ ev.Lawful q ∧ ev.isNewData q = false)
      m.trace tr)
    (ht : t.Abides t') : (m.store ⟨q, t', tr⟩).Stands p := by
  refine h.store hq rfl (htrace.mono fun _ hev => hev.1) fun hstanding => ?_
  obtain ⟨evs, rfl, hevs⟩ := htrace
  refine hstanding.lawful (fun ev hev => (hevs ev hev).2.1)
    (Or.inl fun ev hev => (hevs ev hev).2.2) fun u hu => ⟨t, rfl, ?_⟩
  rw [← Option.some.inj hu]
  exact ht

theorem Stands.eraseConnection (h : m.Stands p) (k : TCPTuple) :
    (m.eraseConnection k).Stands p :=
  h.of_heap (eraseConnection_trace m k) fun _ => eraseConnection_heap_some

theorem Stands.eraseListener (h : m.Stands p) (port : UInt16) :
    (m.eraseListener port).Stands p :=
  h.of_heap (eraseListener_trace m port) fun _ => eraseListener_heap_some

theorem lawful_closed (q : Ptr) (s : TCPState) : (Event.moved q s .closed).Lawful q :=
  ⟨rfl, by cases s <;> exact Bool.or_true _, rfl⟩

theorem Stands.endTcb (h : m.Stands p) (q : Ptr) (cause : EndCause) :
    (m.endTcb q cause).Stands p := by
  cases hq : m.heap q with
  | none => rwa [TCPConnectionManager.endTcb, on_of_freed hq]
  | some t =>
    rw [endTcb_of_heap hq]
    refine h.turn hq ⟨_, rfl, fun ev hev => ?_⟩ ⟨?_, fun _ => id⟩
    · rcases List.mem_pair.mp hev with rfl | rfl
      · exact ⟨rfl, ⟨rfl, rfl, rfl⟩, rfl⟩
      · exact ⟨rfl, lawful_closed q _, rfl⟩
    · cases t.state <;> rfl

theorem Stands.resetTcb (h : m.Stands p) (q : Ptr) : (m.resetTcb q).Stands p := by
  unfold TCPConnectionManager.resetTcb
  split
  · exact Stands.endTcb (m := { m with activeConnections := m.activeConnections - 1 }) h q .rst
  · exact h.endTcb q .rst

/-- Neither FIN nor data. -/
theorem lawful_segment (q : Ptr) (t : TCB σ) {flags : UInt8}
    (hfin : TCPFlags.has flags TCPFlags.fin = false) (seq : BitVec 32) :
    (Event.sent q .segment (t.segment flags seq [])).Lawful q ∧
      (Event.sent q .segment (t.segment flags seq [])).isNewData q = false := by
  refine ⟨⟨?_, rfl, rfl⟩, ?_⟩
  · simp [Event.isFin, TCPSegment.isFin, TCB.segment, hfin]
  · simp [Event.isNewData, TCB.segment]

/-- A new TCB. -/
theorem Stands.file (h : m.Stands p) (hmade : m.Made) (hs : t.state.finSent = false)
    (hheap : m'.heap = Function.update m.heap m.nextAddr (some t))
    (htrace : Grows (fun ev => ev.ptr = some m.nextAddr ∧ ev.Lawful m.nextAddr ∧
      ev.isNewData m.nextAddr = false) m.trace m'.trace) : m'.Stands p := by
  rcases eq_or_ne p m.nextAddr with rfl | hne
  · -- nothing has been said of it
    have hsilent : ∀ ev ∈ m.trace, ev.Lawful m.nextAddr ∧ ev.isNewData m.nextAddr = false :=
      fun ev hev => Event.lawful_of_ptr (hmade.silent hev)
    have hnew : Standing m.nextAddr (some t) ([] : List Event) :=
      .unsent (fun _ hev => absurd hev List.not_mem_nil)
        ⟨Nat.zero_le _, List.Pairwise.nil, fun _ _ hev => absurd hev List.not_mem_nil,
          fun _ hev => absurd hev List.not_mem_nil⟩ rfl
        fun u hu => Option.some.inj hu ▸ hs
    obtain ⟨evs, htrace, hevs⟩ := htrace
    rw [Stands, htrace, hheap, Function.update_self]
    have hold : Standing m.nextAddr (some t) ([] ++ m.trace) :=
      hnew.lawful (fun ev hev => (hsilent ev hev).1) (Or.inl fun ev hev => (hsilent ev hev).2)
        fun u hu => ⟨u, hu, .refl u⟩
    exact hold.lawful (fun ev hev => (hevs ev hev).2.1) (Or.inl fun ev hev => (hevs ev hev).2.2)
      fun u hu => ⟨u, hu, .refl u⟩
  · refine h.lawful (htrace.mono fun ev hev => Event.lawful_of_ptr ?_) fun u hu =>
      ⟨u, ?_, .refl u⟩
    · rw [hev.1]
      exact fun heq => hne (Option.some.inj heq).symm
    · rwa [hheap, Function.update_of_ne hne] at hu

theorem Stands.openWith (h : m.Stands p) (hmade : m.Made) (env : Env) {flags : UInt8}
    (hflags : flags = TCPFlags.syn ∨ flags = TCPFlags.syn ||| TCPFlags.ack) {s : TCPState}
    (hs : s.isOpening = true) (ht : t.state = .closed) : (m.openWith env flags s t).Stands p := by
  have hsent : s.finSent = false := by
    cases s <;> first | rfl | cases hs
  refine h.file hmade (t := { t.sendSyn env.now flags with state := s }) hsent rfl
    ⟨_, rfl, fun ev hev => ?_⟩
  simp only [List.mem_cons, List.not_mem_nil, or_false] at hev
  rcases hev with rfl | rfl | rfl
  · exact ⟨rfl, ⟨rfl, rfl, rfl⟩, rfl⟩
  · exact ⟨rfl, lawful_segment m.nextAddr t (by rcases hflags with rfl | rfl <;> rfl) _⟩
  · refine ⟨rfl, ⟨rfl, ?_, rfl⟩, rfl⟩
    rw [ht]
    cases s <;> first | exact Bool.or_true _ | cases hs

variable [ICongestionControl σ] {x : Input σ} {s s' : Stage σ}

/-! ## The moves -/

theorem Stands.conn (h : m.Stands p) (hq : m.heap q = some t) {y : Option TCPSegment} {c : Conn σ}
    (hpath : Conn.Path y ⟨q, t, m.trace⟩ c) : (m.store c).Stands p :=
  h.store hq hpath.ptr (hpath.grows.mono fun _ hev => hev.ptr) (hpath.standing rfl)

theorem CallMove.stands {a : Call} (hmove : CallMove a m m') (hmade : m.Made) (h : m.Stands p) :
    m'.Stands p := by
  cases hmove with
  | conn _ hq hstep => exact h.conn hq hstep.path
  | setCallbacks _ _ _ hq => exact h.turn hq (.refl _) (.of_eq rfl rfl)
  | setDefaultOptions => exact h.of_heap rfl fun _ => id
  | listen _ port onAccept =>
    unfold TCPConnectionManager.listen
    split
    · exact h
    split
    · exact h
    · exact h.file hmade rfl rfl (.refl _)
  | unlisten port => exact h.eraseListener port
  | connect env =>
    exact (h.openWith hmade env (Or.inl rfl) rfl rfl).log ⟨rfl, rfl, rfl⟩ rfl
  | abort => exact (h.log ⟨rfl, rfl, rfl⟩ rfl).eraseConnection _

theorem Work.stands (hmove : Work x s s') (hmade : s.mgr.Made) (h : s.mgr.Stands p) :
    s'.mgr.Stands p := by
  cases hmove with
  | call _ _ hcall => exact hcall.stands hmade h
  | conn _ hq hstep => exact h.conn hq hstep.path
  | notifyClose => exact h.log ⟨rfl, rfl, rfl⟩ rfl
  | deliver => exact h.log ⟨rfl, rfl, rfl⟩ rfl
  | deliverOoo => exact h.log ⟨rfl, rfl, rfl⟩ rfl
  | advanceRcv hq => exact h.turn hq (.refl _) (.of_eq rfl rfl)
  | @popOoo m q t hq =>
    have habides : t.Abides (TCPConnectionManager.popOoo t) := by
      unfold TCPConnectionManager.popOoo
      split <;> exact .of_eq rfl rfl
    exact h.turn hq (.refl _) habides
  | @stash m q t seg _ hq =>
    have habides : t.Abides (addToOooQueue seg.seqNum seg.data t) := by
      unfold addToOooQueue
      split <;> exact .of_eq rfl rfl
    exact h.turn hq (.refl _) habides

omit [ICongestionControl σ] in
/-- **The peer's FIN**: an arrow, or a disturbance. -/
theorem Stands.receiveFin (h : m.Stands p) (hq : m.heap q = some t) (env : Env)
    {handler next : TCPState} (hedge : FinEdge handler t.state next) :
    (m.receiveFin env q handler next).Stands p := by
  rw [receiveFin_of_heap hq]
  generalize hu : ({ ({ t with rcvNxt := t.rcvNxt + 1 } : TCB σ).countSent env.now TCPFlags.ack 0
    with state := next } : TCB σ) = u
  generalize hseg : ({ t with rcvNxt := t.rcvNxt + 1 } : TCB σ).segment TCPFlags.ack t.sndNxt [] =
    seg
  have hstate : u.state = next := by rw [← hu]
  have hbuf : u.sendBuffer = t.sendBuffer := by rw [← hu]; rfl
  have hack : (Event.sent q .segment seg).Lawful q ∧
      (Event.sent q .segment seg).isNewData q = false := by
    rw [← hseg]
    exact lawful_segment q _ rfl _
  by_cases hover : handler = t.state
  · refine h.turn hq ⟨_, rfl, fun ev hev => ?_⟩ ⟨?_, fun _ hempty => hbuf ▸ hempty⟩
    · simp only [List.mem_cons, List.not_mem_nil, or_false] at hev
      rcases hev with rfl | rfl | rfl
      · exact ⟨rfl, hack⟩
      · exact ⟨rfl, ⟨rfl, rfl, by simp [Event.disturbs, hover]⟩, rfl⟩
      · refine ⟨rfl, ⟨rfl, ?_, rfl⟩, rfl⟩
        generalize t.state = s at hedge hover
        cases hedge <;> first | exact Bool.or_true _ | cases hover
    · rw [hstate]
      generalize t.state = s at hedge hover
      cases hedge <;> first | rfl | cases hover
  · refine h.store hq rfl ⟨_, rfl, fun ev hev => ?_⟩ fun hstanding => ?_
    · simp only [List.mem_cons, List.not_mem_nil, or_false] at hev
      rcases hev with rfl | rfl | rfl <;> rfl
    · have hover' : handler = .established ∧ t.state = .finWait1 ∧ next = .closeWait := by
        generalize t.state = s at hedge hover
        cases hedge with
        | overtaken => exact ⟨rfl, rfl, rfl⟩
        | _ => exact absurd rfl hover
      obtain ⟨rfl, hs, rfl⟩ := hover'
      cases hstanding with
      | unsent _ _ _ hsent =>
        have hfin := hsent t rfl
        rw [hs] at hfin
        cases hfin
      | sent =>
        refine .upset (fun hcalm => ?_) fun hone => ?_
        · have hdisturbs := hcalm (.finReceived q .established t.state) (by simp)
          simp [Event.disturbs, hs] at hdisturbs
        · have harrow := hone.arrows (.moved q t.state .closeWait) (by simp)
          simp [Event.followsArrow, hs, TCPState.arrow] at harrow
      | upset hcalm hone => exact .upset_mono hcalm hone (List.prefix_append ..)

/-- **Every move keeps the way a connection stands.** -/
theorem Move.stands (hmove : Move o x s s') (hmade : s.mgr.Made) (h : s.mgr.Stands p) :
    s'.mgr.Stands p := by
  cases hmove with
  | work hwork => exact hwork.stands hmade h
  | reply => exact h.log ⟨rfl, rfl, rfl⟩ rfl
  | replace => exact (h.endTcb _ _).eraseConnection _
  | accept env => exact h.openWith hmade env (Or.inr rfl) rfl rfl
  | @simultaneousOpen env m q t seg hx hq hs =>
    rw [simultaneousOpen_eq]
    refine h.turn hq ⟨_, rfl, fun ev hev => ?_⟩ ⟨by rw [hs]; rfl, fun _ => id⟩
    rcases List.mem_pair.mp hev with rfl | rfl
    · exact ⟨rfl, lawful_segment q _ rfl _⟩
    · exact ⟨rfl, ⟨rfl, by rw [hs]; exact Bool.or_true _, rfl⟩, rfl⟩
  | @establish m q t t' seg c hx hq hack hopening hpath hstate =>
    rw [establish_store hpath.ptr]
    refine Stands.log (m := { m.store _ with activeConnections := m.activeConnections + 1 }) ?_
      ⟨rfl, rfl, rfl⟩ rfl
    refine h.store hq rfl ((hpath.grows.mono fun _ hev => hev.ptr).snoc rfl) fun hstanding => ?_
    have hsame : t'.state = t.state ∧ t'.sendBuffer = t.sendBuffer := by
      cases hopening <;> exact ⟨rfl, rfl⟩
    have hready := Conn.standing_tcb (c := ⟨q, t, m.trace⟩) rfl hstanding (t := t') hsame.1
      fun _ hempty => hsame.2 ▸ hempty
    refine (hpath.standing rfl hready).lawful (fun ev hev => ?_) (Or.inl fun ev hev => ?_)
      fun u hu => ⟨c.tcb, rfl, ?_⟩
    · rw [List.mem_singleton.mp hev, hstate]
      refine ⟨rfl, ?_, rfl⟩
      rcases hopening.opening with hs | hs <;> rw [hs] <;> exact Bool.or_true _
    · rw [List.mem_singleton.mp hev]
      rfl
    · rw [← Option.some.inj hu]
      refine ⟨?_, fun _ => id⟩
      rw [hstate]
      rcases hopening.opening with hs | hs <;> rw [hs] <;> rfl
  | @receiveFin env m q t seg handler next hx hq hfin hseq hedge => exact h.receiveFin hq env hedge
  | @finAcked m q t next hq hedge =>
    refine h.turn hq (.single ⟨rfl, ⟨rfl, ?_, rfl⟩, rfl⟩) ⟨?_, fun _ => id⟩
    · generalize t.state = s at hedge
      cases hedge <;> exact Bool.or_true _
    · generalize t.state = s at hedge
      cases hedge <;> rfl
  | lastAck => exact (h.endTcb _ _).eraseConnection _
  | rst => exact h.resetTcb _
  | giveUp => exact h.endTcb _ _
  | timeWaitEnd => exact (h.endTcb _ _).eraseConnection _
  | eraseClosed => exact h.eraseConnection _
  | eraseReset => exact h.eraseListener _
  | timeWaitList => exact h.of_heap rfl fun _ => id
  | release hq => exact h.turn hq (.refl _) ⟨TCPState.abides_refl _, fun _ _ => rfl⟩

/-! ## Runs -/

theorem Reachable.stands (h : m.Reachable) (p : Ptr) : m.Stands p := by
  obtain ⟨localIp, xs, rfl⟩ := h
  have hstep : ∀ (m : TCPConnectionManager σ) x, m.WellFormed ∧ m.Made ∧ m.Stands p →
      (m.step x).WellFormed ∧ (m.step x).Made ∧ (m.step x).Stands p := fun m x hm =>
    ⟨hm.1.step x, (path_step hm.1 x).invariant (P := fun s => s.mgr.Made ∧ s.mgr.Stands p)
      (fun _ _ hwf hmove hs => ⟨hmove.made hwf hs.1, hmove.stands hs.1 hs.2⟩) hm.1 hm.2⟩
  refine (GuardedRun.run_invariant hstep ⟨WellFormed.init localIp, ?_, ?_⟩ xs).2.2
  · exact fun _ hev => absurd hev List.not_mem_nil
  · exact .unsent (fun _ hev => absurd hev List.not_mem_nil)
      ⟨Nat.zero_le _, List.Pairwise.nil, fun _ _ hev => absurd hev List.not_mem_nil,
        fun _ hev => absurd hev List.not_mem_nil⟩ rfl fun u hu => by cases hu

/-- **Closing is one-way** for a connection, in every reachable state, if and only if no
function of it has gone on with a state that it was no longer in. -/
theorem oneWay_iff (h : m.Reachable) (p : Ptr) : OneWay p m.trace ↔ Undisturbed p m.trace := by
  cases h.stands p with
  | unsent hcalm hone => exact iff_of_true hone hcalm
  | sent hcalm hone => exact iff_of_true hone hcalm
  | upset hcalm hone => exact iff_of_false hone hcalm

/-! ### A close from inside a callback -/

/-- An application that closes as soon as it has received something. -/
def impatient (now : Nat) : Context (TCPCubic Unit) where
  now := now
  isn _ _ := 100
  metricsBuf := false
  app _ ev := match ev with
    | .onReceive p _ _ => [.close p]
    | _ => []

/-- A client connects to port 80 of a host, whose application listens to what it sends. -/
def impatientHost : List (Input (TCPCubic Unit)) :=
  [⟨impatient 0, .call (.listen 80 none)⟩,
    ⟨impatient 1, .call (.setListenerCallbacks 80 (some 1) none)⟩,
    ⟨impatient 2, .segment (fromPeer TCPFlags.syn 7000 0)⟩,
    ⟨impatient 3, .segment (fromPeer TCPFlags.ack 7001 101)⟩]

/-- One byte, and the FIN in a segment of its own. -/
theorem impatientHost_oneWay :
    OneWay 1 (GuardedRun.run TCPConnectionManager.step (init 0x0a000001) (impatientHost ++
      [⟨impatient 4, .segment { fromPeer TCPFlags.ack 7001 101 with data := [0x47] }⟩,
        ⟨impatient 5, .segment (fromPeer (TCPFlags.fin ||| TCPFlags.ack) 7002 102)⟩])).trace :=
  (oneWay_iff ⟨0x0a000001, _, rfl⟩ 1).mpr (by unfold Undisturbed; decide +kernel)

/-- One byte and the FIN in the same segment: the host goes from `FIN_WAIT_1` back to
`CLOSE_WAIT`. -/
theorem impatientHost_returns : ¬ ∀ (m : TCPConnectionManager (TCPCubic Unit)) (p : Ptr),
    m.Reachable → OneWay p m.trace := by
  intro hclaim
  have hone := hclaim (GuardedRun.run TCPConnectionManager.step (init 0x0a000001) (impatientHost ++
    [⟨impatient 4, .segment { fromPeer (TCPFlags.fin ||| TCPFlags.ack) 7001 101 with
      data := [0x47] }⟩])) 1 ⟨0x0a000001, _, rfl⟩
  exact absurd (hone.noReturn .finWait1 .closeWait (by decide +kernel) rfl) (by decide)

end TCPConnectionManager

end NeuStack
