import Mathlib.Data.List.Induction
import Mathlib.Data.List.Infix
import NeuStack.GuardedRun
import NeuStack.HttpRequests
import NeuStack.HttpServer

/-! # What the HTTP server dispatches

A stream of requests comes in pieces.  As long as no piece goes on behind the end of a
request, and none arrives while a response is being sent, the server has always
dispatched the requests that have arrived in full (`HttpServer.dispatched_run`).  The
parser is reset behind each request, and loses what is behind it.
-/
namespace NeuStack

namespace WireRequest

/-- The bytes of a stream of requests. -/
def wires (rs : List WireRequest) : Bytes := rs.flatMap wire

/-- The requests that the first `n` bytes of the stream hold in full. -/
def arrived : List WireRequest → Nat → List WireRequest
  | [], _ => []
  | r :: rs, n => if r.wire.length ≤ n then r :: arrived rs (n - r.wire.length) else []

theorem wires_append (rs rs' : List WireRequest) : wires (rs ++ rs') = wires rs ++ wires rs' :=
  List.flatMap_append

theorem arrived_append (rs rs' : List WireRequest) (n : Nat) :
    arrived (rs ++ rs') ((wires rs).length + n) = rs ++ arrived rs' n := by
  induction rs with
  | nil => rw [wires, List.flatMap_nil, List.length_nil, Nat.zero_add]; rfl
  | cons r rs ih =>
    have hlength : (wires (r :: rs)).length = r.wire.length + (wires rs).length :=
      List.length_append
    rw [List.cons_append, arrived, if_pos (by omega), hlength,
      show r.wire.length + (wires rs).length + n - r.wire.length = (wires rs).length + n by omega,
      ih, List.cons_append]

theorem arrived_all (rs : List WireRequest) : arrived rs (wires rs).length = rs := by
  have h := arrived_append rs [] 0
  rwa [List.append_nil, Nat.add_zero, arrived, List.append_nil] at h

end WireRequest

namespace HttpServer
open WireRequest (wires arrived)

/-- The calls of `send` from the `n`-th on take `left` bytes before one of them refuses. -/
inductive Drains (u : Surroundings) : Nat → Nat → Prop
  | done (n : Nat) : Drains u n 0
  | take (n left : Nat) (hpos : 0 < u.accept n)
      (hrest : Drains u (n + 1) (left - (u.accept n).toNat)) : Drains u n left

def Input.data : Input → Bytes
  | .receive data => data
  | _ => []

/-- **Nothing stands in the way of what is received**: no response is being streamed; what
is pending goes out; the request does not outgrow the buffer of the parser; and up to
the last byte no request ends. -/
structure Receives (u : Surroundings) (rs : List WireRequest) (c : HttpConnection) (data : Bytes)
    (st : ConnectionState) : Prop where
  idle : st.chunkedGenerator = none
  drains : Drains u c.sends (st.pendingData.length - st.pendingOffset)
  fits : st.parser.buffer.length + data.length ≤ HttpParser.maxBufferSize
  within : ∀ k < data.length,
    (arrived rs (c.received.length + k)).length = (arrived rs c.received.length).length

/-- The condition on one step. -/
def Unhindered (u : Surroundings) (rs : List WireRequest) (c : HttpConnection) : Input → Prop
  | .receive data => ∃ st, c.state = some st ∧ Receives u rs c data st
  | _ => True

/-! ## What sending leaves alone -/

/-- Nothing was dispatched or received between two states of a connection. -/
structure Quiet (c c' : HttpConnection) : Prop where
  dispatched : c'.dispatched = c.dispatched
  received : c'.received = c.received

variable {s : HttpServer} {u : Surroundings} {st : ConnectionState} {c c' c'' : HttpConnection}

theorem Quiet.refl (c : HttpConnection) : Quiet c c := ⟨rfl, rfl⟩

theorem Quiet.trans (h : Quiet c c') (h' : Quiet c' c'') : Quiet c c'' :=
  ⟨h'.dispatched.trans h.dispatched, h'.received.trans h.received⟩

theorem Quiet.send (data : Bytes) (c : HttpConnection) : Quiet c (c.send u data).2 :=
  ⟨List.filterMap_append.trans (List.append_nil _), rfl⟩

theorem Quiet.close (c : HttpConnection) : Quiet c (c.emit .close) :=
  ⟨List.filterMap_append.trans (List.append_nil _), rfl⟩

theorem Quiet.closeIf (h : Quiet c c') (P : Prop) [Decidable P] :
    Quiet c (if P then c'.emit .close else c') := by
  split
  · exact h.trans (.close c')
  · exact h

theorem quiet_sendLoop (data : Bytes) (fuel offset : Nat) (c : HttpConnection) :
    Quiet c (sendLoop u data fuel offset c).2.2 := by
  induction fuel generalizing offset c with
  | zero => exact .refl c
  | succ fuel ih =>
    rw [sendLoop]
    split
    · have hsend := Quiet.send (u := u) (data.drop offset) c
      generalize c.send u (data.drop offset) = p at hsend ⊢
      obtain ⟨sent, c'⟩ := p
      dsimp only at hsend ⊢
      split
      · exact hsend
      · exact hsend.trans (ih ..)
    · exact .refl c

theorem quiet_sendPending (st : ConnectionState) (c : HttpConnection) :
    Quiet c (sendPending u st c).2.2 ∧ (sendPending u st c).2.1.parser = st.parser := by
  have hloop := quiet_sendLoop (u := u) st.pendingData
    (st.pendingData.length - st.pendingOffset) st.pendingOffset c
  rw [sendPending]
  generalize sendLoop u _ _ _ c = p at hloop ⊢
  obtain ⟨done, offset, c'⟩ := p
  dsimp only at hloop ⊢
  split <;> exact ⟨hloop, rfl⟩

theorem quiet_flushPending (st : ConnectionState) (c : HttpConnection) :
    Quiet c (flushPending u st c).2.2 ∧ (flushPending u st c).2.1.parser = st.parser := by
  have hpending := quiet_sendPending (u := u) st c
  rw [flushPending]
  generalize sendPending u st c = p at hpending ⊢
  obtain ⟨done, st', c'⟩ := p
  dsimp only at hpending ⊢
  split
  · refine ⟨?_, hpending.2⟩
    dsimp only
    split
    · exact hpending.1
    · exact hpending.1.trans (.close c')
  · exact hpending

theorem quiet_chunkLoop (chunks : List Bytes) (c : HttpConnection) :
    Quiet c (chunkLoop u chunks c).2.2 := by
  induction chunks generalizing c with
  | nil => exact .refl c
  | cons chunk chunks ih =>
    rw [chunkLoop]
    split
    · exact .refl c
    · have hloop := quiet_sendLoop (u := u) chunk chunk.length 0 c
      generalize sendLoop u chunk _ _ c = p at hloop ⊢
      obtain ⟨done, offset, c'⟩ := p
      dsimp only at hloop ⊢
      split
      · exact hloop.trans (ih c')
      · exact hloop

theorem quiet_sendNextChunk (st : ConnectionState) (c : HttpConnection) :
    Quiet c (sendNextChunk u st c).2 ∧ (sendNextChunk u st c).1.parser = st.parser := by
  rw [sendNextChunk]
  cases st.chunkedGenerator with
  | none => exact ⟨.refl c, rfl⟩
  | some g =>
    dsimp only
    generalize hst : (if st.chunkedHeaderSent = true then st else _) = st'
    have hparser : st'.parser = st.parser := by
      rw [← hst]
      split <;> rfl
    have hpending := quiet_sendPending (u := u) st' c
    rw [hparser] at hpending
    generalize sendPending u st' c = p at hpending ⊢
    obtain ⟨done, st'', c'⟩ := p
    dsimp only at hpending ⊢
    split
    · have hloop := quiet_chunkLoop (u := u) g.chunks c'
      generalize chunkLoop u g.chunks c' = p at hloop ⊢
      obtain ⟨chunks, rest, c''⟩ := p
      dsimp only at hloop ⊢
      have hquiet := hpending.1.trans hloop
      split
      · exact ⟨hquiet, hpending.2⟩
      · split
        · exact ⟨hquiet, hpending.2⟩
        · refine ⟨?_, hpending.2⟩
          dsimp only
          split
          · exact hquiet
          · exact hquiet.trans (.close _)
    · exact hpending

theorem quiet_poll (st : ConnectionState) (c : HttpConnection) :
    Quiet c (poll u st c).2 ∧ (poll u st c).1.parser = st.parser := by
  rw [poll]
  split
  · exact quiet_sendNextChunk st c
  · split
    · exact ⟨.refl c, rfl⟩
    · exact quiet_flushPending st c

theorem quiet_dispatchChunked {n : Nat} {request : HttpRequest} {st' : ConnectionState}
    (h : s.dispatchChunked u n request st c = some (st', c')) : Quiet c c' := by
  rw [dispatchChunked] at h
  obtain ⟨handler, -, hg⟩ := Option.bind_eq_some_iff.mp h
  obtain ⟨g, -, heq⟩ := Option.map_eq_some_iff.mp hg
  have hnext := (quiet_sendNextChunk (u := u)
    { st with chunkedGenerator := some g, chunkedHeaderSent := false } c).1
  rwa [heq] at hnext

theorem quiet_sendResponse (response : HttpResponse) (st : ConnectionState) (c : HttpConnection) :
    Quiet c (sendResponse u response st c).2 :=
  (quiet_flushPending { st with pendingData := response.serialize, pendingOffset := 0 } c).1

/-- **A complete request is dispatched**, and the parser is reset. -/
theorem serve_dispatches (st : ConnectionState) (c : HttpConnection) :
    Quiet (c.emit (.dispatch st.parser.request)) (s.serve u st c).2 ∧
      (s.serve u st c).1.parser = {} := by
  rw [serve]
  dsimp only
  split
  · rename_i hchunked
    refine ⟨?_, rfl⟩
    split at hchunked
    · exact quiet_dispatchChunked hchunked
    · cases hchunked
  · exact ⟨(quiet_sendResponse ..).closeIf _, rfl⟩

/-! ## What is received -/

/-- What the calls of `send` take goes out. -/
theorem sendLoop_drains {data : Bytes} {fuel offset : Nat}
    (h : Drains u c.sends (data.length - offset)) (hfuel : data.length - offset ≤ fuel) :
    (sendLoop u data fuel offset c).1 = true := by
  induction fuel generalizing offset c with
  | zero => rfl
  | succ fuel ih =>
    rw [sendLoop]
    split
    · rename_i hlt
      have hsends : (c.send u (data.drop offset)).2.sends = c.sends + 1 :=
        List.countP_append
      have hresult : (c.send u (data.drop offset)).1 =
          min (u.accept c.sends) (data.drop offset).length := rfl
      rw [List.length_drop] at hresult
      generalize c.send u (data.drop offset) = p at hsends hresult ⊢
      obtain ⟨sent, c'⟩ := p
      dsimp only at hsends hresult ⊢
      generalize hleft : data.length - offset = left at h
      cases h with
      | done => omega
      | take _ _ hpos hrest =>
        rw [if_neg (by omega)]
        refine ih ?_ (by omega)
        rw [hsends, show data.length - (offset + sent.toNat) =
          left - (u.accept c.sends).toNat by omega]
        exact hrest
    · rfl

theorem flushPending_drains (h : Drains u c.sends (st.pendingData.length - st.pendingOffset)) :
    (flushPending u st c).2.1.pendingData = [] := by
  have hloop := sendLoop_drains h (Nat.le_refl _)
  rw [flushPending, sendPending]
  generalize sendLoop u _ _ _ c = p at hloop ⊢
  obtain ⟨done, offset, c'⟩ := p
  dsimp only at hloop
  subst hloop
  rfl

/-- What is received goes to the parser. -/
theorem onReceive_parses (hidle : st.chunkedGenerator = none)
    (hdrains : Drains u c.sends (st.pendingData.length - st.pendingOffset)) (data : Bytes) :
    ∃ st' c', Quiet c c' ∧ st'.parser = st.parser ∧
      s.onReceive u data st c = s.parse u data st' c' := by
  rw [onReceive, hidle, if_neg (by simp)]
  by_cases hpending : st.pendingData = []
  · rw [if_pos hpending]
    exact ⟨st, c, .refl c, rfl, rfl⟩
  · rw [if_neg hpending]
    have hflush := quiet_flushPending (u := u) st c
    have hempty := flushPending_drains hdrains
    generalize flushPending u st c = p at hflush hempty ⊢
    obtain ⟨done, st', c'⟩ := p
    dsimp only at hflush hempty ⊢
    rw [if_pos hempty]
    exact ⟨st', c', hflush.1, hflush.2, rfl⟩

/-- **The requests that have arrived in full have been dispatched**, and the parser has got
what has arrived of the next one. -/
structure InOrder (rs : List WireRequest) (c : HttpConnection) (done left : List WireRequest)
    (part : Bytes) : Prop where
  stream : rs = done ++ left
  received : c.received = wires done ++ part
  dispatched : c.dispatched = done.map WireRequest.request
  part_nil : left = [] → part = []
  part_short : ∀ r rest, left = r :: rest → ∃ b, part ++ b = r.wire ∧ b ≠ []
  parser : ∀ st, c.state = some st → st.parser = (HttpRequestParser.start part).feedLoop

theorem InOrder.arrived_add {rs done left : List WireRequest} {part : Bytes}
    (h : InOrder rs c done left part) (n : Nat) :
    arrived rs (c.received.length + n) = done ++ arrived left (part.length + n) := by
  rw [h.stream, h.received, List.length_append, Nat.add_assoc, WireRequest.arrived_append]

theorem InOrder.arrived {rs done left : List WireRequest} {part : Bytes}
    (h : InOrder rs c done left part) : arrived rs c.received.length = done := by
  have hadd := h.arrived_add 0
  rw [Nat.add_zero, Nat.add_zero] at hadd
  rw [hadd]
  cases left with
  | nil => exact List.append_nil _
  | cons r rest =>
    obtain ⟨b, hwire, hb⟩ := h.part_short r rest rfl
    have hlength := congrArg List.length hwire
    rw [List.length_append] at hlength
    have hpos := List.length_pos_iff.mpr hb
    rw [WireRequest.arrived, if_neg (by omega), List.append_nil]

/-- What is received belongs to one request. -/
theorem InOrder.within {rs done left : List WireRequest} {part data : Bytes}
    (h : InOrder rs c done left part) (hstream : c.received ++ data <+: wires rs)
    (hdata : ∀ k < data.length,
      (WireRequest.arrived rs (c.received.length + k)).length =
        (WireRequest.arrived rs c.received.length).length) :
    left = [] ∧ data = [] ∨ ∃ r rest b, left = r :: rest ∧ part ++ data ++ b = r.wire := by
  have hprefix : part ++ data <+: wires left := by
    rw [h.received, h.stream, WireRequest.wires_append, List.append_assoc] at hstream
    exact (List.prefix_append_right_inj _).mp hstream
  cases left with
  | nil =>
    have hnil := List.prefix_nil.mp hprefix
    exact Or.inl ⟨rfl, (List.append_eq_nil_iff.mp hnil).2⟩
  | cons r rest =>
    right
    obtain ⟨b, hwire, hb⟩ := h.part_short r rest rfl
    have hlength := congrArg List.length hwire
    rw [List.length_append] at hlength
    have hle : (part ++ data).length ≤ r.wire.length := by
      rw [List.length_append]
      by_contra hlong
      have hend := hdata b.length (by omega)
      rw [h.arrived_add, h.arrived, WireRequest.arrived, if_pos (by omega), List.length_append,
        List.length_cons] at hend
      omega
    obtain ⟨b', hb'⟩ := List.prefix_of_prefix_length_le hprefix
      (List.prefix_append r.wire (wires rest)) hle
    exact ⟨r, rest, b', rfl, hb'⟩

theorem InOrder.receive {rs done left : List WireRequest} {part data : Bytes}
    (h : InOrder rs c done left part) (hstream : c.received ++ data <+: wires rs)
    (hst : c.state = some st) (hdata : Receives u rs c data st) :
    ∃ done' left' part', InOrder rs (s.step u c (.receive data)) done' left' part' := by
  obtain ⟨st', c', hquiet, hparser, hparse⟩ := onReceive_parses (s := s) (u := u)
    (c := { c with received := c.received ++ data }) hdata.idle hdata.drains data
  have hstep : s.step u c (.receive data) =
      { (s.parse u data st' c').2 with state := some (s.parse u data st' c').1 } := by
    rw [← hparse, step]
    dsimp only
    rw [hst]
  have hold := h.parser st hst
  have hwithin := h.within hstream hdata.within
  have hwaits : (HttpRequestParser.start part).feedLoop.state ≠ .complete ∧
      (HttpRequestParser.start part).feedLoop.state ≠ .error := by
    rcases hwithin with ⟨hleft, -⟩ | ⟨r, rest, b, hleft, -⟩
    · rw [h.part_nil hleft]
      exact ⟨nofun, nofun⟩
    · obtain ⟨b', hwire, hb'⟩ := h.part_short r rest hleft
      exact HttpRequestParser.feedLoop_partial hwire hb'
  have hfeed : st'.parser.feed data = (HttpRequestParser.start (part ++ data)).feedLoop := by
    rw [hparser, hold]
    exact HttpRequestParser.feed_partial hwaits (hold ▸ hdata.fits)
  rw [hstep, parse, hfeed]
  dsimp only
  have hreceived : c'.received = wires done ++ (part ++ data) := by
    rw [hquiet.received, ← List.append_assoc, ← h.received]
  have hdispatched : c'.dispatched = done.map WireRequest.request :=
    hquiet.dispatched.trans h.dispatched
  -- Either the request goes on, or this was its last piece.
  have hcases : ((HttpRequestParser.start (part ++ data)).feedLoop.state ≠ .complete ∧
        (HttpRequestParser.start (part ++ data)).feedLoop.state ≠ .error ∧
        (left = [] → part ++ data = []) ∧
        ∀ r rest, left = r :: rest → ∃ b, part ++ data ++ b = r.wire ∧ b ≠ []) ∨
      ∃ r rest, left = r :: rest ∧ part ++ data = r.wire := by
    rcases hwithin with ⟨hleft, hnone⟩ | ⟨r, rest, b, hleft, hwire⟩
    · rw [h.part_nil hleft, hnone]
      refine Or.inl ⟨nofun, nofun, fun _ => rfl, fun r rest hcons => ?_⟩
      cases hleft.symm.trans hcons
    · by_cases hb : b = []
      · rw [hb, List.append_nil] at hwire
        exact Or.inr ⟨r, rest, hleft, hwire⟩
      · obtain ⟨hcomplete, herror⟩ := HttpRequestParser.feedLoop_partial hwire hb
        refine Or.inl ⟨hcomplete, herror, fun hnil => ?_, ?_⟩
        · cases hleft.symm.trans hnil
        · intro r' rest' hcons
          cases hleft.symm.trans hcons
          exact ⟨b, hwire, hb⟩
  rcases hcases with ⟨hcomplete, herror, hnil, hshort⟩ | ⟨r, rest, hleft, hwire⟩
  · refine ⟨done, left, part ++ data, ?_⟩
    split
    · rename_i hstate
      exact absurd hstate hcomplete
    · rename_i hstate
      exact absurd hstate herror
    · exact ⟨h.stream, hreceived, hdispatched, hnil, hshort, fun _ heq => by cases heq; rfl⟩
  · have hfull := HttpRequestParser.feedLoop_wire r
    rw [← hwire] at hfull
    rw [hfull]
    obtain ⟨hserve, hreset⟩ := serve_dispatches (s := s) (u := u) { st' with parser :=
      { state := .complete, contentLength := r.body.length, request := r.request } } c'
    refine ⟨done ++ [r], rest, [], ?_, ?_, ?_, fun _ => rfl, ?_, ?_⟩
    · rw [h.stream, hleft, List.append_assoc]
      rfl
    · show (s.serve u _ c').2.received = _
      rw [hserve.received, WireRequest.wires_append, List.append_nil]
      refine hreceived.trans ?_
      rw [hwire, wires, wires, List.flatMap_singleton]
    · show (s.serve u _ c').2.dispatched = _
      rw [hserve.dispatched, List.map_append, ← hdispatched]
      exact List.filterMap_append
    · exact fun r' _ _ => ⟨r'.wire, rfl, r'.wire_ne_nil⟩
    · rintro _ ⟨⟩
      exact hreset

theorem InOrder.quiet {rs done left : List WireRequest} {part : Bytes}
    (h : InOrder rs c done left part) (hquiet : Quiet c c')
    (hparser : ∀ st, c'.state = some st → st.parser = (HttpRequestParser.start part).feedLoop) :
    InOrder rs c' done left part :=
  ⟨h.stream, hquiet.received.trans h.received, hquiet.dispatched.trans h.dispatched, h.part_nil,
    h.part_short, hparser⟩

theorem InOrder.step {rs done left : List WireRequest} {part : Bytes}
    (h : InOrder rs c done left part) {x : Input} (hstream : c.received ++ x.data <+: wires rs)
    (hx : Unhindered u rs c x) :
    ∃ done' left' part', InOrder rs (s.step u c x) done' left' part' := by
  cases x with
  | receive data =>
    obtain ⟨st, hst, hdata⟩ := hx
    exact h.receive hstream hst hdata
  | poll =>
    refine ⟨done, left, part, ?_⟩
    rw [HttpServer.step]
    cases hst : c.state with
    | none => exact h
    | some st =>
      obtain ⟨hquiet, hparser⟩ := quiet_poll (u := u) st c
      have hpoll : InOrder rs { (poll u st c).2 with state := some (poll u st c).1 }
          done left part := by
        refine h.quiet ⟨hquiet.dispatched, hquiet.received⟩ ?_
        rintro _ ⟨⟩
        exact hparser.trans (h.parser st hst)
      exact hpoll
  | close =>
    have hclose := Quiet.close { c with state := none }
    exact ⟨done, left, part, h.quiet ⟨hclose.dispatched, hclose.received⟩ nofun⟩

theorem received_parse (data : Bytes) (st : ConnectionState) (c : HttpConnection) :
    (s.parse u data st c).2.received = c.received := by
  rw [parse]
  dsimp only
  split
  · exact (serve_dispatches ..).1.received
  · exact (quiet_sendResponse ..).received
  · rfl

theorem received_onReceive (data : Bytes) (st : ConnectionState) (c : HttpConnection) :
    (s.onReceive u data st c).2.received = c.received := by
  rw [onReceive]
  split
  · exact (quiet_sendNextChunk st c).1.received
  · split
    · exact received_parse ..
    · have hflush := (quiet_flushPending (u := u) st c).1.received
      generalize flushPending u st c = p at hflush ⊢
      obtain ⟨done, st', c'⟩ := p
      dsimp only at hflush ⊢
      split
      · exact (received_parse ..).trans hflush
      · exact hflush

theorem received_step (c : HttpConnection) (x : Input) :
    (s.step u c x).received = c.received ++ x.data := by
  cases x with
  | receive data =>
    rw [step]
    dsimp only
    split
    · rfl
    · exact received_onReceive ..
  | poll =>
    refine Eq.trans ?_ (List.append_nil _).symm
    rw [step]
    dsimp only
    split
    · rfl
    · exact (quiet_poll ..).1.received
  | close => exact (List.append_nil _).symm

/-- The bytes that a run receives. -/
def bytes (xs : List Input) : Bytes := xs.flatMap Input.data

theorem received_run (xs : List Input) :
    (GuardedRun.run (s.step u) c xs).received = c.received ++ bytes xs := by
  induction xs generalizing c with
  | nil => exact (List.append_nil _).symm
  | cons x xs ih =>
    rw [GuardedRun.run_cons, ih, received_step, List.append_assoc]
    rfl

theorem inOrder_run (s : HttpServer) (u : Surroundings) {rs : List WireRequest}
    {xs : List Input} (hstream : bytes xs <+: wires rs)
    (hxs : GuardedRun.Meets (s.step u) (Unhindered u rs) {} xs) :
    ∃ done left part, InOrder rs (GuardedRun.run (s.step u) {} xs) done left part := by
  induction xs using List.reverseRecOn with
  | nil =>
    refine ⟨[], rs, [], rfl, rfl, rfl, fun _ => rfl, fun r _ _ => ⟨r.wire, rfl, r.wire_ne_nil⟩, ?_⟩
    rintro _ ⟨⟩
    rfl
  | append_singleton xs x ih =>
    obtain ⟨hfront, hlast, -⟩ := hxs.of_append
    rw [bytes, List.flatMap_append, List.flatMap_singleton] at hstream
    obtain ⟨done, left, part, h⟩ := ih ((List.prefix_append _ _).trans hstream) hfront
    rw [GuardedRun.run_append]
    refine h.step ?_ hlast
    rw [received_run]
    exact hstream

/-- **When requests survive segmentation**: in a run that nothing hinders, the server has
dispatched the requests that have arrived, each once and in order; and all of them when
the whole stream has. -/
theorem dispatched_run (s : HttpServer) (u : Surroundings) (rs : List WireRequest)
    (xs : List Input) (hstream : bytes xs <+: wires rs)
    (hxs : GuardedRun.Meets (s.step u) (Unhindered u rs) {} xs) :
    (GuardedRun.run (s.step u) {} xs).dispatched =
        (WireRequest.arrived rs (bytes xs).length).map WireRequest.request ∧
      (bytes xs = wires rs →
        (GuardedRun.run (s.step u) {} xs).dispatched = rs.map WireRequest.request) := by
  obtain ⟨done, left, part, h⟩ := inOrder_run s u hstream hxs
  have hreceived : (GuardedRun.run (s.step u) {} xs).received = bytes xs := received_run xs
  have harrived := h.arrived
  rw [hreceived] at harrived
  have hdispatched : (GuardedRun.run (s.step u) {} xs).dispatched =
      (WireRequest.arrived rs (bytes xs).length).map WireRequest.request := by
    rw [h.dispatched, harrived]
  refine ⟨hdispatched, fun hall => ?_⟩
  rw [hdispatched, hall, WireRequest.arrived_all]

/-- `GET /a HTTP/1.1` and `GET /b HTTP/1.1`. -/
def getOne (path : UInt8) (h : path = 97 ∨ path = 98) : WireRequest where
  method := ascii "GET"
  uri := [47, path]
  version := ascii "HTTP/1.1"
  fields := []
  body := []
  method_word := by decide
  uri_word := by rcases h with rfl | rfl <;> decide
  one_line := by rcases h with rfl | rfl <;> decide
  body_length := rfl

def bothRequests : List WireRequest := [getOne 97 (Or.inl rfl), getOne 98 (Or.inr rfl)]

/-- A request in two pieces, and another one. -/
def threePieces : List Input :=
  [.receive ((wires bothRequests).take 5), .receive (((wires bothRequests).take 19).drop 5),
    .poll, .receive ((wires bothRequests).drop 19)]

theorem dispatched_run_pieces :
    (GuardedRun.run (({} : HttpServer).step { accept := fun _ => 1000 }) {} threePieces).dispatched =
      bothRequests.map WireRequest.request := by
  have hmeets : GuardedRun.Meets (({} : HttpServer).step { accept := fun _ => 1000 })
      (Unhindered { accept := fun _ => 1000 } bothRequests) {} threePieces := by
    refine ⟨?_, ?_, trivial, ?_, trivial⟩
    · exact ⟨{}, rfl, rfl, .done _, by decide +kernel, by decide +kernel⟩
    · refine ⟨{ parser := { buffer := ascii "GET /" } }, by decide +kernel, rfl, .done _,
        by decide +kernel, by decide +kernel⟩
    · refine ⟨{}, by decide +kernel, rfl, .done _, by decide +kernel, by decide +kernel⟩
  exact (dispatched_run {} { accept := fun _ => 1000 } bothRequests threePieces
    (by decide +kernel) hmeets).2 (by decide +kernel)

/-- **Of two requests in one piece** the second is lost. -/
theorem pipelined_lost :
    (GuardedRun.run (({} : HttpServer).step { accept := fun _ => 1000 }) {}
      [.receive (wires bothRequests), .poll]).dispatched ≠
      bothRequests.map WireRequest.request := by
  decide +kernel

end HttpServer
end NeuStack
