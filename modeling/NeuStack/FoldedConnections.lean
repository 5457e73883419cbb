import NeuStack.HttpDispatch

/-! # Connections with header names in lower case

What the server does does not depend on what its parser holds, nor on the case of the header
names in what it has dispatched: each of its functions does the same to the connection without
these (`HttpConnection.folded`).  A request is served by its names only as far as its handler
looks at them, and by the decision to keep the connection (`folded_serve`).
-/
namespace NeuStack

def HttpRequest.folded (r : HttpRequest) : HttpRequest :=
  { r with headers := r.headers.map fun e => (e.1.map StringUtils.toLower, e.2) }

def HttpEvent.folded : HttpEvent → HttpEvent
  | .dispatch request => .dispatch request.folded
  | x => x

/-- Without the parser. -/
def ConnectionState.folded (st : ConnectionState) : ConnectionState := { st with parser := {} }

/-- **What a connection is** but for the case of header names: what the server has done on it,
and what it is going to send. -/
def HttpConnection.folded (c : HttpConnection) : HttpConnection where
  state := c.state.map ConnectionState.folded
  received := []
  log := c.log.map HttpEvent.folded

/-- No handler looks at the case of header names. -/
structure HttpServer.CaseBlind (s : HttpServer) : Prop where
  routes : ∀ {method path handler}, s.routes method path = some handler →
    ∀ n request, handler n request.folded = handler n request
  chunkedRoutes : ∀ {path handler}, s.chunkedRoutes path = some handler →
    ∀ n request, handler n request.folded = handler n request
  notFoundHandler : ∀ {handler}, s.notFoundHandler = some handler →
    ∀ n request, handler n request.folded = handler n request

namespace HttpConnection

theorem folded_emit (x : HttpEvent) (c : HttpConnection) :
    (c.emit x).folded = c.folded.emit x.folded := by
  rw [emit, folded, List.map_append]
  rfl

theorem sends_folded (c : HttpConnection) : c.folded.sends = c.sends := by
  rw [sends, folded, List.countP_map]
  refine List.countP_congr fun x _ => ?_
  cases x <;> rfl

theorem length_dispatched_folded (c : HttpConnection) :
    c.folded.dispatched.length = c.dispatched.length := by
  have hdispatched : c.folded.dispatched = c.dispatched.map HttpRequest.folded := by
    rw [dispatched, folded, List.filterMap_map, dispatched, List.map_filterMap]
    refine congrArg (List.filterMap · c.log) (funext fun x => ?_)
    cases x <;> rfl
  rw [hdispatched, List.length_map]

theorem folded_send (u : Surroundings) (data : Bytes) (c : HttpConnection) :
    c.folded.send u data = ((c.send u data).1, (c.send u data).2.folded) := by
  rw [send, sends_folded]
  exact congrArg (Prod.mk _) (folded_emit (.send data _) c).symm

end HttpConnection

namespace HttpServer
variable {s : HttpServer} {u : Surroundings} {st : ConnectionState} {c : HttpConnection}

/-- A state and a connection, folded. -/
def folded (p : ConnectionState × HttpConnection) : ConnectionState × HttpConnection :=
  (p.1.folded, p.2.folded)

theorem folded_closeIf (P : Prop) [Decidable P] (c : HttpConnection) :
    (if P then c.folded.emit .close else c.folded) = (if P then c.emit .close else c).folded := by
  split
  · exact (HttpConnection.folded_emit .close c).symm
  · rfl

theorem folded_keep (keep : Bool) (c : HttpConnection) :
    (if keep then c.folded else c.folded.emit .close) =
      (if keep then c else c.emit .close).folded := by
  cases keep with
  | true => rfl
  | false => exact (HttpConnection.folded_emit .close c).symm

/-! ## Sending -/

theorem folded_sendLoop (data : Bytes) (fuel offset : Nat) (c : HttpConnection) :
    sendLoop u data fuel offset c.folded =
      ((sendLoop u data fuel offset c).1, (sendLoop u data fuel offset c).2.1,
        (sendLoop u data fuel offset c).2.2.folded) := by
  induction fuel generalizing offset c with
  | zero => rfl
  | succ fuel ih =>
    rw [sendLoop, sendLoop, HttpConnection.folded_send]
    dsimp only
    split
    · split
      · rfl
      · exact ih ..
    · rfl

theorem folded_sendPending (st : ConnectionState) (c : HttpConnection) :
    sendPending u st.folded c.folded =
      ((sendPending u st c).1, folded (sendPending u st c).2) := by
  rw [sendPending, sendPending, ConnectionState.folded, folded_sendLoop]
  dsimp only
  split <;> rfl

theorem folded_flushPending (st : ConnectionState) (c : HttpConnection) :
    flushPending u st.folded c.folded =
      ((flushPending u st c).1, folded (flushPending u st c).2) := by
  rw [flushPending, flushPending, folded_sendPending]
  generalize sendPending u st c = p
  obtain ⟨done, st', c'⟩ := p
  cases done with
  | false => rfl
  | true =>
    exact congrArg (fun c => (true, st'.folded, c)) (folded_keep st'.keepAlive c')

theorem folded_sendResponse (response : HttpResponse) (st : ConnectionState) (c : HttpConnection) :
    sendResponse u response st.folded c.folded = folded (sendResponse u response st c) := by
  rw [sendResponse, sendResponse]
  exact congrArg Prod.snd (folded_flushPending { st with
    pendingData := response.serialize, pendingOffset := 0 } c)

theorem folded_chunkLoop (chunks : List Bytes) (c : HttpConnection) :
    chunkLoop u chunks c.folded =
      ((chunkLoop u chunks c).1, (chunkLoop u chunks c).2.1,
        (chunkLoop u chunks c).2.2.folded) := by
  induction chunks generalizing c with
  | nil => rfl
  | cons chunk chunks ih =>
    rw [chunkLoop, chunkLoop, folded_sendLoop]
    dsimp only
    split
    · rfl
    · split
      · exact ih _
      · rfl

/-- `send_next_chunk` once the header is sent. -/
def sendChunks (u : Surroundings) (g : ChunkedResponse) (st : ConnectionState)
    (c : HttpConnection) : ConnectionState × HttpConnection :=
  match chunkLoop u g.chunks c with
  | (chunks, some rest, c) =>
    ({ st with
        chunkedGenerator := some { g with chunks }, pendingData := rest, pendingOffset := 0 }, c)
  | (chunks, none, c) =>
    if ({ g with chunks } : ChunkedResponse).hasMore then
      ({ st with chunkedGenerator := some { g with chunks } }, c)
    else ({ st with chunkedGenerator := none }, if st.keepAlive then c else c.emit .close)

/-- With the header of a chunked response, if it has not been sent. -/
def withHeader (g : ChunkedResponse) (st : ConnectionState) : ConnectionState :=
  if st.chunkedHeaderSent then st
  else
    { st with
      pendingData := chunkedHeader g st.keepAlive, pendingOffset := 0, chunkedHeaderSent := true }

theorem sendNextChunk_eq (st : ConnectionState) (c : HttpConnection) :
    sendNextChunk u st c = match st.chunkedGenerator with
      | none => (st, c)
      | some g =>
        match sendPending u (withHeader g st) c with
        | (true, st, c) => sendChunks u g st c
        | (false, st, c) => (st, c) := by
  rw [sendNextChunk]
  cases hg : st.chunkedGenerator with
  | none => rfl
  | some g =>
    simp only [withHeader, hg]
    generalize sendPending u _ c = p
    obtain ⟨done, st', c'⟩ := p
    cases done with
    | false => rfl
    | true =>
      dsimp only
      rw [if_pos rfl, sendChunks]
      generalize chunkLoop u g.chunks c' = q
      obtain ⟨chunks, rest, c''⟩ := q
      cases rest <;> rfl

theorem folded_sendChunks (g : ChunkedResponse) (st : ConnectionState) (c : HttpConnection) :
    sendChunks u g st.folded c.folded = folded (sendChunks u g st c) := by
  rw [sendChunks, sendChunks, folded_chunkLoop]
  generalize chunkLoop u g.chunks c = q
  obtain ⟨chunks, rest, c'⟩ := q
  cases rest with
  | some rest => rfl
  | none =>
    dsimp only
    split
    · rfl
    · exact congrArg (Prod.mk _) (folded_keep st.keepAlive c')

theorem folded_sendNextChunk (st : ConnectionState) (c : HttpConnection) :
    sendNextChunk u st.folded c.folded = folded (sendNextChunk u st c) := by
  rw [sendNextChunk_eq, sendNextChunk_eq,
    show st.folded.chunkedGenerator = st.chunkedGenerator from rfl]
  cases st.chunkedGenerator with
  | none => rfl
  | some g =>
    have hheader : withHeader g st.folded = (withHeader g st).folded := by
      rw [withHeader, withHeader, show st.folded.chunkedHeaderSent = st.chunkedHeaderSent from rfl]
      split <;> rfl
    dsimp only
    rw [hheader, folded_sendPending]
    generalize sendPending u (withHeader g st) c = p
    obtain ⟨done, st', c'⟩ := p
    cases done with
    | false => rfl
    | true => exact folded_sendChunks g st' c'

theorem folded_poll (st : ConnectionState) (c : HttpConnection) :
    poll u st.folded c.folded = folded (poll u st c) := by
  rw [poll, poll, show st.folded.chunkedGenerator = st.chunkedGenerator from rfl,
    show st.folded.pendingData = st.pendingData from rfl]
  split
  · exact folded_sendNextChunk st c
  · split
    · rfl
    · exact congrArg Prod.snd (folded_flushPending st c)

theorem folded_badRequest (st : ConnectionState) (c : HttpConnection) :
    badRequest u st.folded c.folded = folded (badRequest u st c) := by
  rw [badRequest, badRequest, folded_sendResponse]
  exact congrArg (Prod.mk _) (HttpConnection.folded_emit .close _).symm

/-! ## Serving -/

theorem CaseBlind.dispatch (hs : s.CaseBlind) (file : Bytes → Option Bytes) (n : Nat)
    (request : HttpRequest) : s.dispatch file n request.folded = s.dispatch file n request := by
  rw [HttpServer.dispatch, HttpServer.dispatch,
    show s.routes request.folded.method request.folded.path =
      s.routes request.method request.path from rfl,
    show s.dispatchStatic file request.folded = s.dispatchStatic file request from rfl]
  cases hroute : s.routes request.method request.path with
  | some handler => exact hs.routes hroute n request
  | none =>
    cases s.dispatchStatic file request with
    | some response => rfl
    | none =>
      cases hnotFound : s.notFoundHandler with
      | some handler => exact hs.notFoundHandler hnotFound n request
      | none => rfl

theorem folded_dispatchChunked (hs : s.CaseBlind) (n : Nat) (request : HttpRequest)
    (st : ConnectionState) (c : HttpConnection) :
    s.dispatchChunked u n request.folded st.folded c.folded =
      (s.dispatchChunked u n request st c).map folded := by
  rw [dispatchChunked, dispatchChunked, show request.folded.path = request.path from rfl]
  cases hroute : s.chunkedRoutes request.path with
  | none => rfl
  | some handler =>
    rw [Option.bind_some, Option.bind_some, hs.chunkedRoutes hroute]
    cases handler n request with
    | none => rfl
    | some g =>
      exact congrArg some (folded_sendNextChunk
        { st with chunkedGenerator := some g, chunkedHeaderSent := false } c)

/-- What `serve` does with a request that it has not streamed an answer to. -/
def serveWhole (s : HttpServer) (u : Surroundings) (n : Nat) (request : HttpRequest)
    (st : ConnectionState) (c : HttpConnection) : ConnectionState × HttpConnection :=
  let response := s.dispatch (u.file n) n request
  let response :=
    if st.keepAlive then response
    else response.setHeader (ascii "Connection") (ascii "close")
  let (st, c) := sendResponse u response st c
  ({ st with parser := {} },
    if st.pendingData = [] ∧ st.keepAlive = false then c.emit .close else c)

/-- What `serve` does with a request, when it is to keep the connection or not. -/
def serveAs (s : HttpServer) (u : Surroundings) (keep : Bool) (request : HttpRequest)
    (st : ConnectionState) (c : HttpConnection) : ConnectionState × HttpConnection :=
  let n := c.dispatched.length
  let c := c.emit (.dispatch request)
  let st := { st with keepAlive := keep }
  match if request.method = .get then s.dispatchChunked u n request st c else none with
  | some (st, c) => ({ st with parser := {} }, c)
  | none => s.serveWhole u n request st c

theorem serve_eq (st : ConnectionState) (c : HttpConnection) :
    s.serve u st c = s.serveAs u
      (st.parser.request.headers.get (ascii "Connection") ≠ ascii "close") st.parser.request st c :=
  rfl

theorem folded_serveWhole (hs : s.CaseBlind) (n : Nat) (request : HttpRequest)
    (st : ConnectionState) (c : HttpConnection) :
    s.serveWhole u n request.folded st.folded c.folded =
      folded (s.serveWhole u n request st c) := by
  rw [serveWhole, serveWhole, hs.dispatch, show st.folded.keepAlive = st.keepAlive from rfl]
  generalize (if st.keepAlive = true then s.dispatch (u.file n) n request else _) = response
  dsimp only
  rw [folded_sendResponse]
  generalize sendResponse u response st c = p
  obtain ⟨st', c'⟩ := p
  exact congrArg (Prod.mk _) (folded_closeIf (st'.pendingData = [] ∧ st'.keepAlive = false) c')

theorem folded_serveAs (hs : s.CaseBlind) (keep : Bool) (request : HttpRequest)
    (st : ConnectionState) (c : HttpConnection) :
    s.serveAs u keep request.folded st.folded c.folded =
      folded (s.serveAs u keep request st c) := by
  have hemit : c.folded.emit (.dispatch request.folded) = (c.emit (.dispatch request)).folded :=
    (HttpConnection.folded_emit (.dispatch request) c).symm
  rw [serveAs, serveAs, hemit, c.length_dispatched_folded]
  generalize c.emit (.dispatch request) = c'
  let st' : ConnectionState := { st with keepAlive := keep }
  have hchunked : (if request.folded.method = .get then
      s.dispatchChunked u c.dispatched.length request.folded st'.folded c'.folded else none) =
      (if request.method = .get then
        s.dispatchChunked u c.dispatched.length request st' c' else none).map folded := by
    rw [show request.folded.method = request.method from rfl]
    split
    · exact folded_dispatchChunked hs ..
    · rfl
  rw [show ({ st.folded with keepAlive := keep } : ConnectionState) = st'.folded from rfl, hchunked]
  cases (if request.method = .get then
    s.dispatchChunked u c.dispatched.length request st' c' else none) with
  | none => exact folded_serveWhole hs ..
  | some p => rfl

end HttpServer
end NeuStack
