import NeuStack.HttpDispatch

/-! # The bytes of responses

What the server has to send is a string of bytes, of which `send` takes any number at a time: from
the buffer, from a chunk, or from a header in front of them.  However a call is resumed, it makes
the same moves (`Move`): bytes go out at the front, a response is started where none is left, and
the connection is closed where none is left.  Each call of the server is a path of moves, and some of
them end with a close that does not ask for that (`step_path`).
-/
namespace NeuStack

/-- What `send` took. -/
def HttpEvent.taken : HttpEvent → Bytes
  | .send data result => data.take result.toNat
  | _ => []

/-- The bytes that the connection accepted. -/
def accepted (log : List HttpEvent) : Bytes := log.flatMap HttpEvent.taken

theorem accepted_append (log log' : List HttpEvent) :
    accepted (log ++ log') = accepted log ++ accepted log' :=
  List.flatMap_append

/-- A response that was started: where in the log, and the bytes of it. -/
structure StartedResponse where
  position : Nat
  bytes : Bytes
  deriving DecidableEq

/-- The log, the responses started, and what of them is still to be sent. -/
structure Delivery where
  log : List HttpEvent
  started : List StartedResponse
  unsent : Bytes

namespace HttpServer

/-- The generator of a streamed response. -/
def generatorFor (s : HttpServer) (n : Nat) (request : HttpRequest) : Option ChunkedResponse :=
  if request.method = .get then (s.chunkedRoutes request.path).bind fun handler => handler n request
  else none

/-- The bytes of the response to the request with the number `n`: what the handlers of the
application, a file or the server itself make of it. -/
def answer (s : HttpServer) (u : Surroundings) (n : Nat) (request : HttpRequest) : Bytes :=
  let keepAlive : Bool := request.headers.get (ascii "Connection") ≠ ascii "close"
  match s.generatorFor n request with
  | some g => chunkedHeader g keepAlive ++ g.chunks.flatten
  | none =>
    let response := s.dispatch (u.file n) n request
    (if keepAlive then response
      else response.setHeader (ascii "Connection") (ascii "close")).serialize

/-- The bytes of the response to what cannot be parsed. -/
def badAnswer : Bytes :=
  (({ status := 400 } : HttpResponse).setBody (ascii "Bad Request")).serialize

end HttpServer

namespace Delivery

/-- The connection is closed, whatever is left. -/
def shut (d : Delivery) : Delivery := { d with log := d.log ++ [.close] }

/-- The response to a request that is dispatched next. -/
def answer (s : HttpServer) (u : Surroundings) (d : Delivery) (request : HttpRequest) : Bytes :=
  s.answer u { log := d.log : HttpConnection }.dispatched.length request

/-- A move of the server. -/
inductive Move (s : HttpServer) (u : Surroundings) (d : Delivery) : Delivery → Prop
  | send (data : Bytes) (result : Int) (rest : Bytes)
      (h : d.unsent = data.take result.toNat ++ rest) :
      Move s u d { d with log := d.log ++ [.send data result], unsent := rest }
  | serve (request : HttpRequest) (h : d.unsent = []) : Move s u d
      ⟨d.log ++ [.dispatch request], d.started ++ [⟨d.log.length, d.answer s u request⟩],
        d.answer s u request⟩
  | fail (h : d.unsent = []) : Move s u d
      ⟨d.log, d.started ++ [⟨d.log.length, HttpServer.badAnswer⟩], HttpServer.badAnswer⟩
  | close (h : d.unsent = []) : Move s u d d.shut

/-- Moves one after the other. -/
abbrev Path (s : HttpServer) (u : Surroundings) : Delivery → Delivery → Prop :=
  Relation.ReflTransGen (Move s u)

theorem Path.one {s : HttpServer} {u : Surroundings} {d d' : Delivery} (h : Move s u d d') :
    Path s u d d' :=
  .single h

end Delivery

namespace HttpServer
open Delivery (Move Path)
variable {s : HttpServer} {u : Surroundings} {st : ConnectionState} {c c' c'' : HttpConnection}
  {before between after : Bytes}

/-- From one state of the connection to the other the server sends: what was to be sent is `before`,
and then `after`. -/
def Sends (s : HttpServer) (u : Surroundings) (c c' : HttpConnection) (before after : Bytes) :
    Prop :=
  ∀ started, Path s u ⟨c.log, started, before⟩ ⟨c'.log, started, after⟩

theorem Sends.refl (c : HttpConnection) (before : Bytes) : Sends s u c c before before :=
  fun _ => .refl

theorem Sends.trans (h : Sends s u c c' before between) (h' : Sends s u c' c'' between after) :
    Sends s u c c'' before after :=
  fun started => (h started).trans (h' started)

/-- A close behind the last byte. -/
theorem Sends.close (c : HttpConnection) : Sends s u c (c.emit .close) [] [] :=
  fun _ => .one (.close rfl)

theorem Sends.closeIf (h : Sends s u c c' before []) (P : Prop) [Decidable P] :
    Sends s u c (if P then c' else c'.emit .close) before [] := by
  split
  · exact h
  · exact h.trans (.close c')

/-- One call of `send`. -/
theorem Sends.send (data tail : Bytes) (c : HttpConnection) : Sends s u c (c.send u data).2
    (data ++ tail) (data.drop (c.send u data).1.toNat ++ tail) := by
  intro started
  refine .one (.send data (c.send u data).1 _ ?_)
  rw [← List.append_assoc, List.take_append_drop]

/-! ## The loops -/

theorem sends_sendLoop {data : Bytes} {fuel offset : Nat} (hfuel : data.length - offset ≤ fuel)
    (tail : Bytes) (c : HttpConnection) {done : Bool} {offset' : Nat}
    (h : sendLoop u data fuel offset c = (done, offset', c')) :
    Sends s u c c' (data.drop offset ++ tail) (data.drop offset' ++ tail) ∧
      (done = true → data.drop offset' = []) := by
  induction fuel generalizing offset c with
  | zero =>
    cases h
    exact ⟨.refl _ _, fun _ => List.drop_of_length_le (by omega)⟩
  | succ fuel ih =>
    rw [sendLoop] at h
    split at h
    · rename_i hlt
      -- one call, and the rest of the loop from where it left off
      have hsend := Sends.send (s := s) (u := u) (data.drop offset) tail c
      have hresult : (c.send u (data.drop offset)).1 ≤ (data.drop offset).length :=
        Int.min_le_right ..
      rw [List.length_drop] at hresult
      generalize c.send u (data.drop offset) = p at h hsend hresult
      obtain ⟨sent, c1⟩ := p
      dsimp only at h hsend hresult
      rw [List.drop_drop] at hsend
      split at h
      · rename_i hnone
        cases h
        rw [Int.toNat_eq_zero.mpr hnone] at hsend
        exact ⟨hsend, fun hdone => by cases hdone⟩
      · obtain ⟨hrest, hdone⟩ := ih (by omega) c1 h
        exact ⟨hsend.trans hrest, hdone⟩
    · cases h
      exact ⟨.refl _ _, fun _ => List.drop_of_length_le (by omega)⟩

/-- What is pending. -/
def pendingBytes (st : ConnectionState) : Bytes := st.pendingData.drop st.pendingOffset

theorem sends_sendPending (tail : Bytes) {done : Bool} {st' : ConnectionState}
    (h : sendPending u st c = (done, st', c')) :
    Sends s u c c' (pendingBytes st ++ tail) (pendingBytes st' ++ tail) ∧
      (done = true → st' = { st with pendingData := [], pendingOffset := 0 }) ∧
      ∃ offset, done = false → st' = { st with pendingOffset := offset } := by
  rw [sendPending] at h
  rcases hloop : sendLoop u st.pendingData (st.pendingData.length - st.pendingOffset)
    st.pendingOffset c with ⟨ended, offset, c1⟩
  obtain ⟨hsends, hdone⟩ := sends_sendLoop (Nat.le_refl _) tail c hloop
  rw [hloop] at h
  cases ended with
  | true =>
    cases h
    rw [hdone rfl] at hsends
    exact ⟨hsends, fun _ => rfl, 0, fun hdone => by cases hdone⟩
  | false =>
    cases h
    exact ⟨hsends, fun hdone => (by cases hdone), offset, fun _ => rfl⟩

theorem sends_chunkLoop (chunks : List Bytes) (c : HttpConnection) {chunks' : List Bytes}
    {rest : Option Bytes} (h : chunkLoop u chunks c = (chunks', rest, c')) :
    Sends s u c c' chunks.flatten (rest.getD [] ++ chunks'.flatten) := by
  induction chunks generalizing c with
  | nil =>
    cases h
    exact .refl _ _
  | cons chunk chunks ih =>
    rw [chunkLoop] at h
    split at h
    · rename_i hempty
      cases h
      rw [hempty]
      exact .refl _ _
    · rcases hloop : sendLoop u chunk chunk.length 0 c with ⟨done, offset, c1⟩
      obtain ⟨hsends, hdone⟩ := sends_sendLoop (Nat.sub_le _ _) chunks.flatten c hloop
      rw [hloop] at h
      cases done with
      | true =>
        rw [hdone rfl] at hsends
        exact hsends.trans (ih c1 h)
      | false =>
        cases h
        exact hsends

/-! ## The callers -/

/-- What is still to be sent: what is pending, or a header that is not pending yet, and the chunks
that the generator has not produced. -/
def unsent (st : ConnectionState) : Bytes :=
  match st.chunkedGenerator with
  | none => pendingBytes st
  | some g =>
    (if st.chunkedHeaderSent then pendingBytes st else chunkedHeader g st.keepAlive) ++
      g.chunks.flatten

theorem unsent_idle (h : st.chunkedGenerator = none) : unsent st = pendingBytes st := by
  rw [unsent, h]

theorem unsent_streaming (st : ConnectionState) {g : ChunkedResponse}
    (h : st.chunkedGenerator = some g) (hsent : st.chunkedHeaderSent = true) :
    unsent st = pendingBytes st ++ g.chunks.flatten := by
  rw [unsent, h]
  dsimp only
  rw [if_pos hsent]

/-- Nothing is left of a response. -/
def NothingPending (st : ConnectionState) : Prop :=
  st.pendingData = [] ∧ st.chunkedGenerator = none

theorem NothingPending.unsent (h : NothingPending st) : unsent st = [] := by
  rw [unsent_idle h.2, pendingBytes, h.1, List.drop_nil]

theorem sends_flushPending (hidle : st.chunkedGenerator = none) (c : HttpConnection) :
    Sends s u c (flushPending u st c).2.2 (unsent st) (unsent (flushPending u st c).2.1) ∧
      (flushPending u st c).2.1.chunkedGenerator = none := by
  rw [flushPending]
  rcases hpending : sendPending u st c with ⟨done, st', c'⟩
  obtain ⟨hsends, hdone, offset, hleft⟩ := sends_sendPending [] hpending
  rw [List.append_nil, List.append_nil] at hsends
  rw [unsent_idle hidle]
  cases done with
  | true =>
    obtain rfl := hdone rfl
    have hafter : unsent { st with pendingData := [], pendingOffset := 0 } = [] :=
      NothingPending.unsent ⟨rfl, hidle⟩
    dsimp only
    rw [if_pos rfl, hafter]
    exact ⟨hsends.closeIf _, hidle⟩
  | false =>
    obtain rfl := hleft rfl
    have hafter : unsent { st with pendingOffset := offset } = _ := unsent_idle hidle
    dsimp only
    rw [if_neg Bool.false_ne_true, hafter]
    exact ⟨hsends, hidle⟩

theorem sends_sendNextChunk (st : ConnectionState) (c : HttpConnection) :
    Sends s u c (sendNextChunk u st c).2 (unsent st) (unsent (sendNextChunk u st c).1) := by
  rw [sendNextChunk]
  cases hg : st.chunkedGenerator with
  | none => exact .refl _ _
  | some g =>
    dsimp only
    -- the header is pending from here on, if it was not already sent
    generalize hst : (if st.chunkedHeaderSent = true then st else _) = st1
    have hheader : st1.chunkedHeaderSent = true ∧ st1.chunkedGenerator = some g ∧
        unsent st = pendingBytes st1 ++ g.chunks.flatten := by
      rw [← hst, unsent, hg]
      split
      · rename_i hsent
        exact ⟨hsent, hg, rfl⟩
      · exact ⟨rfl, rfl, rfl⟩
    obtain ⟨hsent, hgenerator, hunsent⟩ := hheader
    rw [hunsent]
    rcases hpending : sendPending u st1 c with ⟨done, st2, c2⟩
    obtain ⟨hsends, hdone, offset, hleft⟩ := sends_sendPending g.chunks.flatten hpending
    cases done with
    | false =>
      obtain rfl := hleft rfl
      dsimp only
      rw [if_neg Bool.false_ne_true]
      dsimp only
      rw [unsent_streaming { st1 with pendingOffset := offset } hgenerator hsent]
      exact hsends
    | true =>
      obtain rfl := hdone rfl
      dsimp only
      rw [if_pos rfl]
      rcases hloop : chunkLoop u g.chunks c2 with ⟨chunks, rest, c3⟩
      have hchunks := hsends.trans (sends_chunkLoop g.chunks c2 hloop)
      dsimp only
      cases rest with
      | some rest =>
        -- the rest of a chunk that was cut is pending
        have hafter := unsent_streaming { st1 with
          pendingData := rest, pendingOffset := 0
          chunkedGenerator := some { g with chunks } } rfl hsent
        dsimp only
        rw [hafter]
        exact hchunks
      | none =>
        dsimp only
        split
        · have hafter := unsent_streaming { st1 with
            pendingData := [], pendingOffset := 0
            chunkedGenerator := some { g with chunks } } rfl hsent
          rw [hafter]
          exact hchunks
        · rename_i hmore
          have hend : chunks = [] := by
            rw [ChunkedResponse.hasMore, Bool.not_eq_true', Bool.not_eq_false] at hmore
            exact List.isEmpty_iff.mp hmore
          rw [hend] at hchunks
          exact hchunks.closeIf _

theorem sends_poll (st : ConnectionState) (c : HttpConnection) :
    Sends s u c (poll u st c).2 (unsent st) (unsent (poll u st c).1) := by
  rw [poll]
  split
  · exact sends_sendNextChunk st c
  · rename_i hidle
    split
    · exact .refl _ _
    · exact (sends_flushPending (Option.not_isSome_iff_eq_none.mp hidle) c).1

/-! ## Responses -/

/-- The connection once what is pending has been offered again. -/
def flushed (u : Surroundings) (st : ConnectionState) (c : HttpConnection) :
    ConnectionState × HttpConnection :=
  if st.pendingData = [] then (st, c) else (flushPending u st c).2

/-- Whether the server gets to parse what it receives: nothing is left of a response. -/
def Parses (u : Surroundings) (st : ConnectionState) (c : HttpConnection) : Prop :=
  st.chunkedGenerator = none ∧ (flushed u st c).1.pendingData = []

instance : Decidable (Parses u st c) := inferInstanceAs (Decidable (_ ∧ _))

/-- The response that receiving `data` starts: it is the one to a request that is complete, or the
one to what cannot be parsed. -/
def starts (s : HttpServer) (u : Surroundings) (data : Bytes) (st : ConnectionState)
    (c : HttpConnection) : List StartedResponse :=
  if Parses u st c then
    let c := (flushed u st c).2
    let parser := st.parser.feed data
    match parser.state with
    | .complete => [⟨c.log.length, answer s u c.dispatched.length parser.request⟩]
    | .error => [⟨c.log.length, badAnswer⟩]
    | _ => []
  else []

theorem onReceive_eq (s : HttpServer) (u : Surroundings) (data : Bytes) (st : ConnectionState)
    (c : HttpConnection) : s.onReceive u data st c =
      if st.chunkedGenerator.isSome then sendNextChunk u st c
      else if (flushed u st c).1.pendingData = [] then
        s.parse u data (flushed u st c).1 (flushed u st c).2
      else flushed u st c := by
  rw [onReceive]
  split
  · rfl
  · rw [flushed]
    by_cases hpending : st.pendingData = []
    · rw [if_pos hpending, if_pos hpending, if_pos hpending]
    · rw [if_neg hpending, if_neg hpending]

/-- Sending a response from the beginning. -/
theorem sends_sendResponse (response : HttpResponse) (hidle : st.chunkedGenerator = none)
    (c : HttpConnection) : Sends s u c (sendResponse u response st c).2 response.serialize
      (HttpServer.unsent (sendResponse u response st c).1) ∧
      (sendResponse u response st c).1.chunkedGenerator = none := by
  have hbefore : HttpServer.unsent
      { st with pendingData := response.serialize, pendingOffset := 0 } = response.serialize :=
    unsent_idle hidle
  have hflush := @sends_flushPending s u
    { st with pendingData := response.serialize, pendingOffset := 0 } hidle c
  rw [hbefore] at hflush
  exact hflush

/-- A response that is sent at once to a client that wants no other may be followed by a close. -/
theorem sends_respond (response : HttpResponse) (hidle : st.chunkedGenerator = none)
    (c : HttpConnection) :
    Sends s u c (if (sendResponse u response st c).1.pendingData = [] ∧
        (sendResponse u response st c).1.keepAlive = false
      then (sendResponse u response st c).2.emit .close else (sendResponse u response st c).2)
      response.serialize (HttpServer.unsent (sendResponse u response st c).1) := by
  obtain ⟨hsends, hafter⟩ := sends_sendResponse (u := u) response hidle c
  generalize sendResponse u response st c = p at hsends hafter ⊢
  split
  · rename_i hclose
    rw [NothingPending.unsent ⟨hclose.1, hafter⟩] at hsends ⊢
    exact hsends.trans (.close _)
  · exact hsends

theorem dispatchChunked_eq (n : Nat) (request : HttpRequest) (st : ConnectionState)
    (c : HttpConnection) :
    (if request.method = .get then s.dispatchChunked u n request st c else none) =
      (s.generatorFor n request).map fun g =>
        sendNextChunk u { st with chunkedGenerator := some g, chunkedHeaderSent := false } c := by
  rw [generatorFor]
  split
  · rw [dispatchChunked, Option.map_bind]
    rfl
  · rfl

/-- **Serving a request** sends its response. -/
theorem sends_serve (hidle : st.chunkedGenerator = none) (c : HttpConnection) :
    Sends s u (c.emit (.dispatch st.parser.request)) (s.serve u st c).2
      (answer s u c.dispatched.length st.parser.request)
      (HttpServer.unsent (s.serve u st c).1) := by
  rw [serve]
  dsimp only
  rw [dispatchChunked_eq, answer]
  dsimp only
  generalize hkeep :
    decide (st.parser.request.headers.get (ascii "Connection") ≠ ascii "close") = keep
  cases s.generatorFor c.dispatched.length st.parser.request with
  | some g =>
    rw [Option.map_some]
    exact sends_sendNextChunk { st with
      keepAlive := keep, chunkedGenerator := some g, chunkedHeaderSent := false } _
  | none =>
    rw [Option.map_none]
    exact @sends_respond s u { st with keepAlive := keep } _ hidle _

theorem serve_path (hidle : st.chunkedGenerator = none) (c : HttpConnection)
    (started : List StartedResponse) : Path s u ⟨c.log, started, []⟩ ⟨(s.serve u st c).2.log,
      started ++ [⟨c.log.length, answer s u c.dispatched.length st.parser.request⟩],
      HttpServer.unsent (s.serve u st c).1⟩ :=
  (Path.one (.serve st.parser.request rfl)).trans (sends_serve hidle c _)

theorem badRequest_path (hidle : st.chunkedGenerator = none) (c : HttpConnection)
    (started : List StartedResponse) : ∃ d, Path s u ⟨c.log, started, []⟩ d ∧
      d.shut = ⟨(badRequest u st c).2.log, started ++ [⟨c.log.length, badAnswer⟩],
        HttpServer.unsent (badRequest u st c).1⟩ := by
  refine ⟨_, (Path.one (.fail rfl)).trans
    ((sends_sendResponse (s := s) (u := u) (({ status := 400 } : HttpResponse).setBody
      (ascii "Bad Request")) hidle c).1 _), ?_⟩
  rfl

/-! ## Steps -/

/-- Whether what is received ends in a parse error, which the server answers and then closes. -/
def Fails (u : Surroundings) (data : Bytes) (st : ConnectionState) (c : HttpConnection) : Prop :=
  Parses u st c ∧ (st.parser.feed data).state = .error

theorem sends_flushed (hidle : st.chunkedGenerator = none) (c : HttpConnection) :
    Sends s u c (flushed u st c).2 (HttpServer.unsent st) (HttpServer.unsent (flushed u st c).1) ∧
      (flushed u st c).1.chunkedGenerator = none ∧ (flushed u st c).1.parser = st.parser := by
  rw [flushed]
  split
  · exact ⟨.refl _ _, hidle, rfl⟩
  · obtain ⟨hsends, hafter⟩ := sends_flushPending (u := u) hidle c
    exact ⟨hsends, hafter, (quiet_flushPending st c).2⟩

theorem onReceive_path (s : HttpServer) (u : Surroundings) (data : Bytes) (st : ConnectionState)
    (c : HttpConnection) (started : List StartedResponse) :
    ∃ d, Path s u ⟨c.log, started, HttpServer.unsent st⟩ d ∧
      (Fails u data st c ∧ d.shut = ⟨(s.onReceive u data st c).2.log,
          started ++ starts s u data st c, HttpServer.unsent (s.onReceive u data st c).1⟩ ∨
        ¬ Fails u data st c ∧ d = ⟨(s.onReceive u data st c).2.log,
          started ++ starts s u data st c, HttpServer.unsent (s.onReceive u data st c).1⟩) := by
  rw [onReceive_eq, starts]
  by_cases hidle : st.chunkedGenerator = none
  · obtain ⟨hsends, hafter, hparser⟩ := sends_flushed (u := u) hidle c
    rw [if_neg (Option.not_isSome_iff_eq_none.mpr hidle)]
    by_cases hpending : (flushed u st c).1.pendingData = []
    · have hparses : Parses u st c := ⟨hidle, hpending⟩
      have hempty := NothingPending.unsent ⟨hpending, hafter⟩
      rw [hempty] at hsends
      rw [if_pos hparses, if_pos hpending, parse, hparser]
      dsimp only
      generalize hstate : (st.parser.feed data).state = state
      cases state with
      | complete =>
        refine ⟨_, (hsends started).trans (@serve_path s u
          { (flushed u st c).1 with parser := st.parser.feed data } hafter
          (flushed u st c).2 started), .inr ⟨?_, rfl⟩⟩
        rintro ⟨-, herror⟩
        cases hstate.symm.trans herror
      | error =>
        obtain ⟨d, hpath, hshut⟩ := @badRequest_path s u
          { (flushed u st c).1 with parser := st.parser.feed data } hafter
          (flushed u st c).2 started
        exact ⟨d, (hsends started).trans hpath, .inl ⟨⟨hparses, hstate⟩, hshut⟩⟩
      | firstLine | headers | body =>
        -- the request is not complete, and nothing is sent
        refine ⟨_, hsends started, .inr ⟨?_, ?_⟩⟩
        · rintro ⟨-, herror⟩
          cases hstate.symm.trans herror
        · rw [List.append_nil]
          exact congrArg (Delivery.mk _ _) hempty.symm
    · have hparses : ¬ Parses u st c := fun h => hpending h.2
      rw [if_neg hparses, if_neg hpending, List.append_nil]
      exact ⟨_, hsends started, .inr ⟨fun h => hparses h.1, rfl⟩⟩
  · have hparses : ¬ Parses u st c := fun h => hidle h.1
    rw [if_neg hparses, if_pos (Option.isSome_iff_ne_none.mpr hidle), List.append_nil]
    exact ⟨_, sends_sendNextChunk st c started, .inr ⟨fun h => hparses h.1, rfl⟩⟩

/-- A connection, the responses started on it, and what of them is still to be sent; whatever that
is once the server has dropped its state. -/
structure Tracks (c : HttpConnection) (started : List StartedResponse) (d : Delivery) : Prop where
  log : d.log = c.log
  started : d.started = started
  unsent : ∀ st, c.state = some st → d.unsent = unsent st

/-- The responses that a step starts. -/
def startsOf (s : HttpServer) (u : Surroundings) (c : HttpConnection) :
    Input → List StartedResponse
  | .receive data =>
    match c.state with
    | none => []
    | some st => starts s u data st { c with received := c.received ++ data }
  | _ => []

/-- Whether a step ends with a close that asks for nothing. -/
def Shuts (u : Surroundings) (c : HttpConnection) : Input → Prop
  | .receive data =>
    ∃ st, c.state = some st ∧ Fails u data st { c with received := c.received ++ data }
  | .poll => False
  | .close => True

theorem step_receive_none (hst : c.state = none) (data : Bytes) :
    s.step u c (.receive data) = { c with received := c.received ++ data } := by
  rw [step]
  dsimp only
  rw [hst]

theorem step_receive_some (hst : c.state = some st) (data : Bytes) :
    s.step u c (.receive data) =
      { (s.onReceive u data st { c with received := c.received ++ data }).2 with
        state := some (s.onReceive u data st { c with received := c.received ++ data }).1 } := by
  rw [step]
  dsimp only
  rw [hst]

theorem step_poll_none (hst : c.state = none) : s.step u c .poll = c := by
  rw [step, hst]

theorem step_poll_some (hst : c.state = some st) :
    s.step u c .poll = { (poll u st c).2 with state := some (poll u st c).1 } := by
  rw [step, hst]

theorem startsOf_none (hst : c.state = none) (x : Input) : startsOf s u c x = [] := by
  cases x with
  | receive data => rw [startsOf, hst]
  | poll | close => rfl

theorem startsOf_some (hst : c.state = some st) (data : Bytes) : startsOf s u c (.receive data) =
    starts s u data st { c with received := c.received ++ data } := by
  rw [startsOf, hst]

/-- **Each call of the server is a path of moves**, and maybe a close. -/
theorem step_path {started : List StartedResponse} {d : Delivery} (h : Tracks c started d)
    (x : Input) : ∃ d', Path s u d d' ∧
      (Shuts u c x ∧ Tracks (s.step u c x) (started ++ startsOf s u c x) d'.shut ∨
        ¬ Shuts u c x ∧ Tracks (s.step u c x) (started ++ startsOf s u c x) d') := by
  obtain ⟨log, started', left⟩ := d
  obtain ⟨rfl, rfl, hleft⟩ := h
  have hkept (started : List StartedResponse) : started = started ++ [] :=
    (List.append_nil _).symm
  cases x with
  | receive data =>
    cases hst : c.state with
    | none =>
      rw [step_receive_none hst, startsOf_none hst]
      refine ⟨_, .refl, .inr ⟨?_, rfl, hkept _, fun st h => nomatch hst.symm.trans h⟩⟩
      rintro ⟨st, h, -⟩
      exact nomatch hst.symm.trans h
    | some st =>
      obtain rfl := hleft st hst
      obtain ⟨d, hpath, hcase⟩ := onReceive_path s u data st
        { c with received := c.received ++ data } started'
      rw [step_receive_some hst, startsOf_some hst]
      refine ⟨d, hpath, ?_⟩
      rcases hcase with ⟨hfails, hshut⟩ | ⟨hfails, rfl⟩
      · refine .inl ⟨⟨st, hst, hfails⟩, ?_⟩
        rw [hshut]
        exact ⟨rfl, rfl, fun _ h => congrArg unsent (Option.some.inj h)⟩
      · refine .inr ⟨?_, rfl, rfl, fun _ h => congrArg unsent (Option.some.inj h)⟩
        rintro ⟨st', h, hfails'⟩
        cases hst.symm.trans h
        exact hfails hfails'
  | poll =>
    cases hst : c.state with
    | none =>
      rw [step_poll_none hst]
      exact ⟨_, .refl, .inr ⟨id, rfl, hkept _, fun st h => nomatch hst.symm.trans h⟩⟩
    | some st =>
      obtain rfl := hleft st hst
      rw [step_poll_some hst]
      exact ⟨_, sends_poll (u := u) st c started', .inr ⟨id, rfl, hkept _,
        fun _ h => congrArg unsent (Option.some.inj h)⟩⟩
  | close => exact ⟨_, .refl, .inl ⟨trivial, rfl, hkept _, nofun⟩⟩

end HttpServer
end NeuStack
