import NeuStack.HttpDelivered

/-! # Closing on an unfinished response

`flush_pending`, `send_next_chunk` and `on_receive` close behind a response only when the last byte
of it is out.  Two calls do not look: the one behind the answer to what cannot be parsed, and the
one in `on_close`, which drops what is pending.  A run closes on finished responses only just when
nothing is left at these two (`HttpServer.closes_finished_iff`).
-/
namespace NeuStack

/-- The responses that were started before the log was longer than `k`. -/
def startedBefore (started : List StartedResponse) (k : Nat) : List StartedResponse :=
  started.filter (·.position ≤ k)

/-- **The server closes on finished responses only**: before a close every byte of the responses
that were started has been accepted. -/
def ClosesFinished (log : List HttpEvent) (started : List StartedResponse) : Prop :=
  ∀ k, log[k]? = some .close → accepted (log.take k) = bytesOf (startedBefore started k)

namespace HttpServer

/-- The calls of `send` from the first number to the last take so many bytes, and none refuses. -/
inductive DrainsTo (u : Surroundings) : Nat → Nat → Nat → Prop
  | done (n : Nat) : DrainsTo u n 0 n
  | take {n left m : Nat} (hleft : 0 < left) (hpos : 0 < u.accept n)
      (hrest : DrainsTo u (n + 1) (left - (u.accept n).toNat) m) : DrainsTo u n left m

/-- **Nothing is left where the server does not look**: when the peer closes, nothing is still to be
sent; and when what is received cannot be parsed, the calls of `send` take the whole answer. -/
def ClosesBehind (u : Surroundings) (c : HttpConnection) : Input → Prop
  | .receive data => ∀ st m, c.state = some st → st.chunkedGenerator = none →
      DrainsTo u c.sends (st.pendingData.length - st.pendingOffset) m →
      (st.parser.feed data).state = .error → ∃ m', DrainsTo u m badAnswer.length m'
  | .poll => True
  | .close => ∀ st, c.state = some st → unsent st = []

variable {s : HttpServer} {u : Surroundings} {st : ConnectionState} {c : HttpConnection}

/-! ## Calls of `send` -/

namespace DrainsTo
variable {n left m m' : Nat}

theorem unique (h : DrainsTo u n left m) (h' : DrainsTo u n left m') : m = m' := by
  induction h with
  | done n =>
    cases h' with
    | done => rfl
    | take hleft => exact absurd hleft (Nat.lt_irrefl 0)
  | take hleft _ _ ih =>
    cases h' with
    | done => exact absurd hleft (Nat.lt_irrefl 0)
    | take _ _ hrest => exact ih hrest

theorem drains (h : DrainsTo u n left m) : Drains u n left := by
  induction h with
  | done n => exact .done n
  | take _ hpos _ ih => exact .take _ _ hpos ih

end DrainsTo

theorem sends_send (u : Surroundings) (data : Bytes) (c : HttpConnection) :
    (c.send u data).2.sends = c.sends + 1 :=
  List.countP_append

theorem sends_closeIf (c : HttpConnection) (P : Prop) [Decidable P] :
    (if P then c else c.emit .close).sends = c.sends := by
  split
  · rfl
  · exact List.countP_append

/-- A loop that ends has been drained. -/
theorem drainsTo_sendLoop {data : Bytes} {fuel offset : Nat} (hfuel : data.length - offset ≤ fuel)
    (c : HttpConnection) (hdone : (sendLoop u data fuel offset c).1 = true) :
    DrainsTo u c.sends (data.length - offset) (sendLoop u data fuel offset c).2.2.sends := by
  induction fuel generalizing offset c with
  | zero =>
    rw [Nat.le_zero.mp hfuel]
    exact .done _
  | succ fuel ih =>
    rw [sendLoop] at hdone ⊢
    by_cases hlt : offset < data.length
    · have hsends := sends_send u (data.drop offset) c
      have hresult : (c.send u (data.drop offset)).1 =
          min (u.accept c.sends) (data.drop offset).length := rfl
      rw [List.length_drop] at hresult
      rw [if_pos hlt] at hdone ⊢
      generalize c.send u (data.drop offset) = p at hdone hsends hresult ⊢
      obtain ⟨sent, c'⟩ := p
      dsimp only at hdone hsends hresult ⊢
      by_cases hnone : sent ≤ 0
      · rw [if_pos hnone] at hdone
        cases hdone
      · -- the loop goes on with the next call, from behind what was taken
        rw [if_neg hnone] at hdone ⊢
        have hrest := ih (by omega) c' hdone
        rw [hsends, show data.length - (offset + sent.toNat) =
          data.length - offset - (u.accept c.sends).toNat by omega] at hrest
        exact .take (by omega) (by omega) hrest
    · rw [if_neg hlt, show data.length - offset = 0 by omega]
      exact .done _

/-- A loop that stops has something left. -/
theorem sendLoop_stops {data : Bytes} {fuel offset : Nat} {c : HttpConnection}
    (hstops : (sendLoop u data fuel offset c).1 = false) :
    (sendLoop u data fuel offset c).2.1 < data.length := by
  induction fuel generalizing offset c with
  | zero => cases hstops
  | succ fuel ih =>
    rw [sendLoop] at hstops ⊢
    by_cases hlt : offset < data.length
    · rw [if_pos hlt] at hstops ⊢
      generalize c.send u (data.drop offset) = p at hstops ⊢
      obtain ⟨sent, c'⟩ := p
      dsimp only at hstops ⊢
      by_cases hnone : sent ≤ 0
      · rw [if_pos hnone]
        exact hlt
      · rw [if_neg hnone] at hstops ⊢
        exact ih hstops
    · rw [if_neg hlt] at hstops
      cases hstops

/-- **What `flush_pending` does**: either the calls of `send` take everything, or some of it
stays. -/
theorem flushPending_cases (st : ConnectionState) (c : HttpConnection) :
    (∃ m, DrainsTo u c.sends (st.pendingData.length - st.pendingOffset) m ∧
        (flushPending u st c).2.2.sends = m ∧
        (flushPending u st c).2.1 = { st with pendingData := [], pendingOffset := 0 }) ∨
      (∀ m, ¬ DrainsTo u c.sends (st.pendingData.length - st.pendingOffset) m) ∧
        ∃ offset < st.pendingData.length,
          (flushPending u st c).2.1 = { st with pendingOffset := offset } := by
  have hdrains := @drainsTo_sendLoop u st.pendingData _ st.pendingOffset (Nat.le_refl _) c
  have hstays := @sendLoop_drains u c st.pendingData
    (st.pendingData.length - st.pendingOffset) st.pendingOffset
  have hstops := @sendLoop_stops u st.pendingData
    (st.pendingData.length - st.pendingOffset) st.pendingOffset c
  rw [flushPending, sendPending]
  rcases hloop : sendLoop u st.pendingData (st.pendingData.length - st.pendingOffset)
    st.pendingOffset c with ⟨done, offset, c'⟩
  rw [hloop] at hdrains hstops
  cases done with
  | true =>
    refine .inl ⟨_, hdrains rfl, ?_, rfl⟩
    dsimp only
    rw [if_pos rfl]
    exact sends_closeIf c' _
  | false =>
    refine .inr ⟨?_, offset, ?_, rfl⟩
    · intro m hm
      have hdone := hstays hm.drains (Nat.le_refl _)
      rw [hloop] at hdone
      cases hdone
    · exact hstops rfl

/-- What is received fails just when what is pending goes out, and it cannot be parsed. -/
theorem fails_iff (data : Bytes) : Fails u data st c ↔ st.chunkedGenerator = none ∧
    (∃ m, DrainsTo u c.sends (st.pendingData.length - st.pendingOffset) m) ∧
    (st.parser.feed data).state = .error := by
  rw [Fails, Parses, flushed, and_assoc]
  refine and_congr_right fun _ => and_congr_left fun _ => ?_
  by_cases hpending : st.pendingData = []
  · rw [if_pos hpending, hpending]
    refine iff_of_true rfl ⟨c.sends, ?_⟩
    rw [List.length_nil, Nat.zero_sub]
    exact .done _
  · rw [if_neg hpending]
    rcases flushPending_cases (u := u) st c with ⟨m, hm, -, hst⟩ | ⟨hnone, offset, -, hst⟩
    · exact iff_of_true (congrArg ConnectionState.pendingData hst) ⟨m, hm⟩
    · refine iff_of_false ?_ (not_exists.mpr hnone)
      rw [hst]
      exact hpending

/-- The calls of `send` behind what was pending. -/
theorem flushed_sends {m : Nat}
    (h : DrainsTo u c.sends (st.pendingData.length - st.pendingOffset) m) :
    (flushed u st c).2.sends = m := by
  rw [flushed]
  split
  · rename_i hpending
    rw [hpending, List.length_nil, Nat.zero_sub] at h
    exact (DrainsTo.done _).unique h
  · rcases flushPending_cases (u := u) st c with ⟨m', hm', hsends, -⟩ | ⟨hnone, -⟩
    · exact hsends.trans (hm'.unique h)
    · exact absurd h (hnone m)

/-- Whether all of a response that is sent from the beginning goes out. -/
theorem unsent_sendResponse (response : HttpResponse) (hidle : st.chunkedGenerator = none)
    (c : HttpConnection) : unsent (sendResponse u response st c).1 = [] ↔
      ∃ m, DrainsTo u c.sends response.serialize.length m := by
  rw [sendResponse]
  rcases flushPending_cases (u := u)
    { st with pendingData := response.serialize, pendingOffset := 0 } c with
    ⟨m, hm, -, hst⟩ | ⟨hnone, offset, hoffset, hst⟩
  · rw [hst]
    exact iff_of_true (NothingPending.unsent ⟨rfl, hidle⟩) ⟨m, hm⟩
  · rw [hst]
    refine iff_of_false ?_ (not_exists.mpr hnone)
    have hleft : unsent { st with
      pendingData := response.serialize, pendingOffset := offset } = _ := unsent_idle hidle
    rw [hleft]
    exact fun h => absurd (List.drop_eq_nil_iff.mp h) (Nat.not_le.mpr hoffset)

/-- Whether all of the answer to what cannot be parsed goes out. -/
theorem unsent_fails {data : Bytes} (h : Fails u data st c) {m : Nat}
    (hm : DrainsTo u c.sends (st.pendingData.length - st.pendingOffset) m) :
    unsent (s.onReceive u data st c).1 = [] ↔ ∃ m', DrainsTo u m badAnswer.length m' := by
  obtain ⟨⟨hidle, hempty⟩, herror⟩ := h
  obtain ⟨-, hafter, hparser⟩ := @sends_flushed s u st hidle c
  rw [onReceive_eq, if_neg (Option.not_isSome_iff_eq_none.mpr hidle), if_pos hempty, parse, hparser]
  dsimp only
  rw [herror, ← flushed_sends hm]
  exact @unsent_sendResponse u { (flushed u st c).1 with parser := st.parser.feed data } _ hafter
    (flushed u st c).2

end HttpServer

/-! ## Closes along the moves -/

theorem startedBefore_all {started : List StartedResponse} {k : Nat}
    (h : ∀ r ∈ started, r.position ≤ k) : startedBefore started k = started :=
  List.filter_eq_self.mpr fun r hr => decide_eq_true (h r hr)

theorem startedBefore_append (started : List StartedResponse) {rs : List StartedResponse} {k : Nat}
    (h : ∀ r ∈ rs, k < r.position) : startedBefore (started ++ rs) k = startedBefore started k := by
  have hlater : startedBefore rs k = [] :=
    List.filter_eq_nil_iff.mpr fun r hr hk =>
      absurd (h r hr) (Nat.not_lt.mpr (of_decide_eq_true hk))
  rw [startedBefore, List.filter_append, ← startedBefore, ← startedBefore, hlater, List.append_nil]

namespace ClosesFinished
variable {log : List HttpEvent} {started : List StartedResponse}

theorem event (h : ClosesFinished log started) (hwithin : ∀ r ∈ started, r.position ≤ log.length)
    (x : HttpEvent) (hx : x = .close → accepted log = bytesOf started) :
    ClosesFinished (log ++ [x]) started := by
  intro k hk
  rcases Delivery.getElem?_concat hk with ⟨hlt, hk⟩ | ⟨rfl, hclose⟩
  · rw [List.take_append_of_le_length (Nat.le_of_lt hlt)]
    exact h k hk
  · rw [List.take_left, startedBefore_all hwithin]
    exact hx hclose

theorem start (h : ClosesFinished log started) (bytes : Bytes) :
    ClosesFinished log (started ++ [⟨log.length, bytes⟩]) := by
  intro k hk
  obtain ⟨hlt, -⟩ := List.getElem?_eq_some_iff.mp hk
  rw [startedBefore_append]
  · exact h k hk
  · intro r hr
    rw [List.mem_singleton.mp hr]
    exact hlt

end ClosesFinished

namespace Delivery
variable {s : HttpServer} {u : Surroundings} {d d' : Delivery}

/-- Every close came behind the last byte, and the delivery is exact. -/
def Closing (s : HttpServer) (u : Surroundings) (d : Delivery) : Prop :=
  Exact s u d ∧ ClosesFinished d.log d.started

namespace Closing

theorem move (h : Closing s u d) (hmove : Move s u d d') : Closing s u d' := by
  obtain ⟨hexact, hcloses⟩ := h
  refine ⟨hexact.move hmove, ?_⟩
  cases hmove with
  | send => exact hcloses.event hexact.within _ nofun
  | serve request =>
    refine (hcloses.start _).event ?_ _ nofun
    intro r hr
    rcases List.mem_append.mp hr with hr | hr
    · exact hexact.within r hr
    · rw [List.mem_singleton.mp hr]
  | fail => exact hcloses.start _
  | close hunsent =>
    refine hcloses.event hexact.within _ fun _ => ?_
    rw [← hexact.total, hunsent, List.append_nil]

theorem path (h : Closing s u d) (hpath : Path s u d d') : Closing s u d' :=
  GuardedRun.invariant_of_path (fun _ _ hmove hd => hd.move hmove) hpath h

/-- A close that asks for nothing. -/
theorem shut_iff (h : Closing s u d) :
    ClosesFinished d.shut.log d.shut.started ↔ d.unsent = [] := by
  obtain ⟨hexact, hcloses⟩ := h
  have htotal := hexact.total
  constructor
  · intro hshut
    have hlast := hshut d.log.length (List.getElem?_concat_length ..)
    rw [shut, List.take_left, startedBefore_all hexact.within, ← htotal] at hlast
    exact List.self_eq_append_right.mp hlast
  · intro hunsent
    rw [hunsent, List.append_nil] at htotal
    exact hcloses.event hexact.within .close fun _ => htotal

end Closing
end Delivery

/-! ## Runs -/

namespace HttpServer
variable {s : HttpServer} {u : Surroundings} {t : TracedConnection}

/-- The server drops its state with a close, behind which nothing is sent. -/
def Dropped (t : TracedConnection) : Prop :=
  t.conn.state = none → ∃ k, t.conn.log[k]? = some .close ∧
    accepted (t.conn.log.take k) = accepted t.conn.log ∧ startedBefore t.started k = t.started

theorem Dropped.step (h : Dropped t) (hdelivers : Delivers s u t) (x : Input) :
    Dropped (s.tracedStep u t x) := by
  intro hnext
  cases x with
  | receive data =>
    cases hst : t.conn.state with
    | none =>
      rw [tracedStep, step_receive_none hst, startsOf_none hst, List.append_nil]
      exact h hst
    | some st =>
      rw [tracedStep, step_receive_some hst] at hnext
      cases hnext
  | poll =>
    cases hst : t.conn.state with
    | none =>
      rw [tracedStep, step_poll_none hst, startsOf_none hst, List.append_nil]
      exact h hst
    | some st =>
      rw [tracedStep, step_poll_some hst] at hnext
      cases hnext
  | close =>
    obtain ⟨d, htracks, hexact⟩ := hdelivers
    have hwithin := hexact.within
    rw [htracks.log, htracks.started] at hwithin
    refine ⟨t.conn.log.length, List.getElem?_concat_length .., ?_, ?_⟩
    · have hlog : (s.tracedStep u t .close).conn.log = t.conn.log ++ [.close] := rfl
      rw [hlog, List.take_left, accepted_append]
      exact (List.append_nil _).symm
    · have hstarted : (s.tracedStep u t .close).started = t.started ++ [] := rfl
      rw [hstarted, List.append_nil]
      exact startedBefore_all hwithin

/-- What the peer's close does. -/
theorem closes_close (hdelivers : Delivers s u t) (hdropped : Dropped t)
    (hcloses : ClosesFinished t.conn.log t.started) :
    ClosesBehind u t.conn .close ↔
      ClosesFinished (s.tracedStep u t .close).conn.log (s.tracedStep u t .close).started := by
  obtain ⟨⟨log, started, left⟩, ⟨rfl, rfl, hleft⟩, hexact⟩ := hdelivers
  have hshut := Delivery.Closing.shut_iff ⟨hexact, hcloses⟩
  have hstarted : (s.tracedStep u t .close).started = t.started := List.append_nil _
  rw [hstarted]
  refine Iff.trans ?_ hshut.symm
  cases hst : t.conn.state with
  | none =>
    -- the server has dropped its state before, with a close that was in order
    obtain ⟨k, hk, haccepted, hall⟩ := hdropped hst
    have hclosed := hcloses k hk
    have htotal := hexact.total
    rw [haccepted, hall, ← htotal] at hclosed
    refine iff_of_true ?_ (List.self_eq_append_right.mp hclosed)
    intro st h
    exact nomatch hst.symm.trans h
  | some st =>
    have hunsent : left = unsent st := hleft st hst
    dsimp only
    rw [hunsent]
    refine ⟨fun h => h st hst, fun h st' hst' => ?_⟩
    cases hst.symm.trans hst'
    exact h

/-- What receiving does. -/
theorem closes_receive (hdelivers : Delivers s u t)
    (hcloses : ClosesFinished t.conn.log t.started) (data : Bytes) :
    ClosesBehind u t.conn (.receive data) ↔ ClosesFinished
      (s.tracedStep u t (.receive data)).conn.log (s.tracedStep u t (.receive data)).started := by
  obtain ⟨d, htracks, hexact⟩ := hdelivers
  rw [← htracks.log, ← htracks.started] at hcloses
  obtain ⟨d', hpath, hcase⟩ := step_path (s := s) (u := u) htracks (.receive data)
  have hclosing := Delivery.Closing.path ⟨hexact, hcloses⟩ hpath
  rcases hcase with ⟨⟨st, hst, hfails⟩, hnext⟩ | ⟨hshuts, hnext⟩
  · -- the close behind a 400 response does not ask what is left
    have hshut := hclosing.shut_iff
    rw [hnext.log, hnext.started] at hshut
    obtain ⟨-, ⟨m, hm⟩, herror⟩ := (fails_iff data).mp hfails
    have hunsent := hnext.unsent (s.onReceive u data st
      { t.conn with received := t.conn.received ++ data }).1 (by rw [step_receive_some hst])
    have hleft := unsent_fails (s := s) hfails hm
    rw [← hunsent] at hleft
    refine Iff.trans ?_ (hleft.symm.trans hshut.symm)
    constructor
    · intro h
      exact h st m hst hfails.1.1 hm herror
    · intro hall st' m' hst' _ hm' _
      cases hst.symm.trans hst'
      rwa [← hm.unique hm']
  · have hfinished := hclosing.2
    rw [hnext.log, hnext.started] at hfinished
    refine iff_of_true ?_ hfinished
    intro st m hst hidle hm herror
    exact absurd ⟨st, hst, (fails_iff data).mpr ⟨hidle, ⟨m, hm⟩, herror⟩⟩ hshuts

theorem closes_poll (hdelivers : Delivers s u t)
    (hcloses : ClosesFinished t.conn.log t.started) :
    ClosesFinished (s.tracedStep u t .poll).conn.log (s.tracedStep u t .poll).started := by
  obtain ⟨d, htracks, hexact⟩ := hdelivers
  rw [← htracks.log, ← htracks.started] at hcloses
  obtain ⟨d', hpath, hcase⟩ := step_path (s := s) (u := u) htracks .poll
  have hclosing := Delivery.Closing.path ⟨hexact, hcloses⟩ hpath
  obtain ⟨-, hnext⟩ := hcase.resolve_left fun h => h.1
  have hfinished := hclosing.2
  rwa [hnext.log, hnext.started] at hfinished

/-- A step closes on finished responses just when nothing is left at the closes that do not look. -/
theorem closes_step (hdelivers : Delivers s u t) (hdropped : Dropped t)
    (hcloses : ClosesFinished t.conn.log t.started) (x : Input) :
    ClosesBehind u t.conn x ↔
      ClosesFinished (s.tracedStep u t x).conn.log (s.tracedStep u t x).started := by
  cases x with
  | receive data => exact closes_receive hdelivers hcloses data
  | poll => exact iff_of_true trivial (closes_poll hdelivers hcloses)
  | close => exact closes_close hdelivers hdropped hcloses

/-- The guard looks at the connection only. -/
theorem meets_conn (t : TracedConnection) (xs : List Input) :
    GuardedRun.Meets (s.tracedStep u) (fun t x => ClosesBehind u t.conn x) t xs ↔
      GuardedRun.Meets (s.step u) (ClosesBehind u) t.conn xs := by
  induction xs generalizing t with
  | nil => exact Iff.rfl
  | cons x xs ih => exact and_congr_right fun _ => ih (s.tracedStep u t x)

/-- **The server closes on finished responses only**, in every state of a run, just when nothing is
left at the two closes that do not look. -/
theorem closes_finished_iff (s : HttpServer) (u : Surroundings) (xs : List Input) :
    (∀ ys, ys <+: xs →
        ClosesFinished (GuardedRun.run (s.step u) {} ys).log (s.traced u ys).started) ↔
      GuardedRun.Meets (s.step u) (ClosesBehind u) {} xs := by
  have hruns := @GuardedRun.always_and_meets_iff _ _ (s.tracedStep u)
    (fun t x => ClosesBehind u t.conn x) (fun t => ClosesFinished t.conn.log t.started)
    (fun t => Delivers s u t ∧ Dropped t) (fun _ _ => True)
    (fun t x h => ⟨h.1.step x, h.2.step h.1 x⟩)
    (fun t x h hcloses => (closes_step h.1 h.2 hcloses x).trans (iff_of_eq (and_true _)).symm)
    {} ⟨.start, nofun⟩ nofun xs
  rw [and_iff_left (GuardedRun.meets_of_forall (fun _ _ _ => trivial) _)] at hruns
  refine Iff.trans (forall₂_congr fun ys _ => ?_) (hruns.trans (meets_conn _ xs))
  rw [← conn_traced, traced]

/-- A client that closes behind its request, of whose answer ten bytes have gone out. -/
def halfClosed : List Input :=
  [.receive (ascii "GET / HTTP/1.1\r\n\r\n"), .close]

/-- **A client that closes behind its request** loses the rest of the answer. -/
theorem halfClosed_cut : ¬ ClosesFinished
    (GuardedRun.run (({} : HttpServer).step { accept := fun n => if n = 0 then 10 else 0 }) {}
      halfClosed).log
    (({} : HttpServer).traced { accept := fun n => if n = 0 then 10 else 0 }
      halfClosed).started := by
  intro h
  have hcut := h 3 (by decide +kernel)
  revert hcut
  decide +kernel

end HttpServer
end NeuStack
