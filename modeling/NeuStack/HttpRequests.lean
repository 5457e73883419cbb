import NeuStack.MessageParser

/-! # What the request parser makes of a request

A `WireRequest` is a request as a client writes it.  The parser is complete when it has
got all of one (`feedLoop_wire`), with nothing left over, and not before
(`feedLoop_partial`).
-/
namespace NeuStack

/-- A well-formed request: a request line, header lines, and a body of the length that
they say. -/
structure WireRequest where
  method : Bytes
  uri : Bytes
  version : Bytes
  fields : List HeaderField
  body : Bytes
  method_word : 32 ∉ method
  uri_word : 32 ∉ uri
  one_line : HttpParser.cutLine (method ++ 32 :: (uri ++ 32 :: version)) = none
  body_length : body.length = HttpParser.contentLengthOf (HeaderField.collect [] fields) 0

namespace WireRequest

def requestLine (r : WireRequest) : Bytes := r.method ++ 32 :: (r.uri ++ 32 :: r.version)

/-- The bytes of the request. -/
def wire (r : WireRequest) : Bytes :=
  r.requestLine ++ crlf ++ (HeaderField.lines r.fields ++ (crlf ++ r.body))

/-- What a server sees of it. -/
def request (r : WireRequest) : HttpRequest :=
  { HttpRequestParser.splitPathQuery r.uri { method := .parse r.method } with
    version := r.version, headers := HeaderField.collect [] r.fields, body := r.body }

theorem wire_ne_nil (r : WireRequest) : r.wire ≠ [] := by
  intro h
  have hlength := congrArg List.length h
  simp only [wire, crlf, List.length_append, List.length_cons, List.length_nil] at hlength
  omega

end WireRequest

/-- A request line that can be read, and header lines. -/
structure RequestHead where
  method : Bytes
  uri : Bytes
  version : Bytes
  fields : List HeaderField
  method_word : 32 ∉ method
  uri_word : 32 ∉ uri
  one_line : HttpParser.cutLine (method ++ 32 :: (uri ++ 32 :: version)) = none

namespace RequestHead

/-- The bytes up to the body, and something behind them. -/
def wire (h : RequestHead) (rest : Bytes) : Bytes :=
  h.method ++ 32 :: (h.uri ++ 32 :: h.version) ++ crlf ++
    (HeaderField.lines h.fields ++ (crlf ++ rest))

/-- The request without its body. -/
def request (h : RequestHead) : HttpRequest :=
  { HttpRequestParser.splitPathQuery h.uri { method := .parse h.method } with
    version := h.version, headers := HeaderField.collect [] h.fields }

end RequestHead

/-- A request up to its body. -/
def WireRequest.head (r : WireRequest) : RequestHead := { r with }

namespace HttpRequestParser
open HttpParser (cutLine parseHeaders)
variable {p q : HttpRequestParser}

/-- With `b` behind the input. -/
def more (b : Bytes) (p : HttpRequestParser) : HttpRequestParser :=
  { p with toHttpParser := p.toHttpParser.more b }

theorem parseRequestLine_more (h : p.parseRequestLine = some q) (b : Bytes) :
    (p.more b).parseRequestLine = some (q.more b) := by
  rw [parseRequestLine] at h ⊢
  cases hcut : cutLine p.buffer with
  | none =>
    rw [hcut] at h
    cases h
  | some cut =>
    obtain ⟨line, rest⟩ := cut
    rw [hcut] at h
    rw [show cutLine (p.more b).buffer = _ from HttpParser.cutLine_append hcut b]
    dsimp only at h ⊢
    cases hline : requestLine line with
    | none =>
      rw [hline] at h
      cases h
      rfl
    | some parts =>
      rw [hline] at h
      cases h
      rfl

theorem parseRequestLine_state (h : p.parseRequestLine = some q) :
    q.state = .headers ∨ q.state = .error := by
  rw [parseRequestLine] at h
  split at h
  · cases h
  · dsimp only at h
    split at h
    · cases h
      exact Or.inr rfl
    · cases h
      exact Or.inl rfl

/-- The request parser as a message parser. -/
def message : MessageParser HttpRequestParser where
  base p := p.toHttpParser
  headers p := p.request.headers
  firstLine := parseRequestLine
  withHeaders headers q p := { p with toHttpParser := q, request := { p.request with headers } }
  check p := (true, p)
  withBody body q p := { p with toHttpParser := q, request := { p.request with body } }
  more := more
  more_nil p := by
    show { p with toHttpParser := { p.toHttpParser with buffer := p.buffer ++ [] } } = p
    rw [List.append_nil]
  more_more a b p := by
    show { p with toHttpParser := { p.toHttpParser with buffer := p.buffer ++ a ++ b } } = _
    rw [List.append_assoc]
    rfl
  base_more _ _ := rfl
  headers_more _ _ := rfl
  firstLine_more b h := parseRequestLine_more h b
  firstLine_state h := parseRequestLine_state h
  base_withHeaders _ _ _ := rfl
  headers_withHeaders _ _ _ := rfl
  withHeaders_more _ _ _ _ := rfl
  withHeaders_twice _ _ _ _ _ := rfl
  check_more _ _ := rfl
  check_cases _ := Or.inr ⟨rfl, rfl⟩
  base_withBody _ _ _ := rfl
  withBody_more _ _ _ _ := rfl

theorem round_firstLine (h : p.state = .firstLine) :
    message.round p = match p.parseRequestLine with
      | none => (false, p)
      | some q => (true, q) := by
  rw [message.round_firstLine h, show message.firstLine p = p.parseRequestLine from rfl]
  cases p.parseRequestLine <;> rfl

theorem feedRound_eq (p : HttpRequestParser) : p.feedRound = message.round p := by
  cases hstate : p.state with
  | firstLine => rw [feedRound, hstate, round_firstLine hstate] <;> rfl
  | headers =>
    rcases hparse : parseHeaders (p.buffer.length + 1) p.request.headers p.toHttpParser with
      ⟨ended, headers, q⟩
    rw [feedRound, hstate, message.round_headers hstate hparse]
    simp only [hparse]
    cases ended <;> rfl
  | body =>
    rw [feedRound, hstate, message.round_body hstate]
    rfl
  | complete => rw [feedRound, hstate, message.round_stopped (Or.inl hstate)]
  | error => rw [feedRound, hstate, message.round_stopped (Or.inr hstate)]

theorem feedLoop_eq (p : HttpRequestParser) : p.feedLoop = Rounds.run message.round 4 p := by
  rw [feedLoop, funext feedRound_eq]

/-- A parser that gets all of its input at once. -/
def start (bytes : Bytes) : HttpRequestParser := { buffer := bytes }

theorem feedLoop_more (a b : Bytes) :
    ((feedLoop (start a)).more b).feedLoop = feedLoop (start (a ++ b)) := by
  rw [feedLoop_eq, feedLoop_eq, feedLoop_eq]
  exact (message.resumable.run_more (p := start a) (show 3 < 4 by decide) b).symm

/-- The parser behind the headers, with the body in the buffer. -/
def behindHeaders (request : HttpRequest) (headers : HttpHeaders) (body : Bytes) :
    HttpRequestParser :=
  { toHttpParser := HttpParser.endHeaders headers { state := .headers, buffer := body }
    request := { request with headers } }

/-- Where the body is in the buffer, the parser is complete. -/
theorem run_behindHeaders_of_le {request : HttpRequest} {headers : HttpHeaders} {rest : Bytes}
    (hbody : request.body = []) (henough : HttpParser.contentLengthOf headers 0 ≤ rest.length)
    (n : Nat) :
    Rounds.run message.round (n + 1) (behindHeaders request headers rest) =
      { state := .complete, buffer := rest.drop (HttpParser.contentLengthOf headers 0)
        contentLength := HttpParser.contentLengthOf headers 0
        request :=
          { request with headers, body := rest.take (HttpParser.contentLengthOf headers 0) } } := by
  by_cases hpos : 0 < HttpParser.contentLengthOf headers 0
  · have hstate : (behindHeaders request headers rest).state = .body := if_pos hpos
    have hround := message.round_body (p := behindHeaders request headers rest) hstate
    rw [show (message.base (behindHeaders request headers rest)).parseBody = _ from
      if_pos henough] at hround
    rw [Rounds.run_of_goes hround]
    exact message.run_stopped (Or.inl rfl) _
  · have hstate : (behindHeaders request headers rest).state = .complete := if_neg hpos
    rw [message.run_stopped (p := behindHeaders request headers rest) (Or.inl hstate),
      behindHeaders, HttpParser.endHeaders]
    dsimp only
    rw [if_neg hpos, Nat.eq_zero_of_not_pos hpos, List.take_zero, List.drop_zero, ← hbody]

/-- Where it is not, the parser waits. -/
theorem run_behindHeaders_of_lt {request : HttpRequest} {headers : HttpHeaders} {rest : Bytes}
    (hwaits : rest.length < HttpParser.contentLengthOf headers 0) (n : Nat) :
    (Rounds.run message.round (n + 1) (behindHeaders request headers rest)).state = .body := by
  have hstate : (behindHeaders request headers rest).state = .body :=
    if_pos (Nat.zero_lt_of_lt hwaits)
  have hround := message.round_body (p := behindHeaders request headers rest) hstate
  rw [show (message.base (behindHeaders request headers rest)).parseBody = _ from
    if_neg (Nat.not_le.mpr hwaits)] at hround
  rw [Rounds.run_of_waits hround]
  exact hstate

theorem splitPathQuery_kept (uri : Bytes) (r : HttpRequest) :
    (splitPathQuery uri r).headers = r.headers ∧ (splitPathQuery uri r).body = r.body := by
  rw [splitPathQuery]
  split <;> exact ⟨rfl, rfl⟩

/-- **Behind the head** of a request the body is left. -/
theorem feedLoop_head (h : RequestHead) (rest : Bytes) :
    feedLoop (start (h.wire rest)) =
      Rounds.run message.round 2 (behindHeaders h.request h.request.headers rest) := by
  let first : HttpRequest :=
    { splitPathQuery h.uri { method := .parse h.method } with version := h.version }
  let line := h.method ++ 32 :: (h.uri ++ 32 :: h.version)
  let behind := HeaderField.lines h.fields ++ (crlf ++ rest)
  have hcut : cutLine (start (h.wire rest)).buffer = some (line, behind) :=
    HttpParser.cutLine_line h.one_line behind
  have hline : requestLine line = some (h.method, h.uri, h.version) := by
    rw [requestLine, show Delimited.cutAt 32 line = _ from Delimited.cutAt_of h.method_word _]
    dsimp only
    rw [Delimited.cutAt_of h.uri_word]
  have hread : (start (h.wire rest)).parseRequestLine =
      some { state := .headers, buffer := behind, request := first } := by
    rw [parseRequestLine, hcut]
    dsimp only
    rw [hline]
    rfl
  have hfirst : first.headers = [] := (splitPathQuery_kept _ _).1
  have hparse : HttpParser.parseHeaders (behind.length + 1) []
      { state := .headers, buffer := behind } = _ :=
    HttpParser.parseHeaders_lines h.fields rfl (Nat.lt_succ_self _)
  -- one round for the first line, and one for the headers
  have hround := round_firstLine (p := start (h.wire rest)) rfl
  rw [hread] at hround
  have hheaders := message.round_headers
    (p := { state := .headers, buffer := behind, request := first }) rfl
    ((congrArg (parseHeaders _ · _) hfirst).trans hparse)
  rw [feedLoop_eq, Rounds.run_of_goes hround, Rounds.run_of_goes hheaders]
  rfl

/-- **The parser is complete behind a request**, and nothing is left over. -/
theorem feedLoop_wire (r : WireRequest) :
    feedLoop (start r.wire) =
      { state := .complete, contentLength := r.body.length, request := r.request } := by
  have hbody : r.head.request.body = [] := (splitPathQuery_kept _ _).2
  have hrun := run_behindHeaders_of_le hbody (Nat.le_of_eq r.body_length.symm) 1
  rw [← r.body_length, List.take_length, List.drop_length] at hrun
  exact (feedLoop_head r.head r.body).trans hrun

/-- **In the middle of a request** the parser waits for more. -/
theorem feedLoop_partial {r : WireRequest} {a b : Bytes} (h : a ++ b = r.wire) (hb : b ≠ []) :
    (feedLoop (start a)).state ≠ .complete ∧ (feedLoop (start a)).state ≠ .error := by
  have hwire := feedLoop_wire r
  rw [← h, ← feedLoop_more] at hwire
  have hstop : (feedLoop (start a)).state = .complete ∨ (feedLoop (start a)).state = .error →
      ((feedLoop (start a)).more b).feedLoop = (feedLoop (start a)).more b := by
    intro hstopped
    rw [feedLoop_eq ((feedLoop (start a)).more b)]
    exact message.run_stopped (p := (feedLoop (start a)).more b) hstopped 4
  refine ⟨fun hcomplete => hb ?_, fun herror => ?_⟩
  · rw [hstop (Or.inl hcomplete)] at hwire
    have hbuffer : (feedLoop (start a)).buffer ++ b = [] := congrArg (·.buffer) hwire
    exact (List.append_eq_nil_iff.mp hbuffer).2
  · rw [hstop (Or.inr herror)] at hwire
    have hstate : (feedLoop (start a)).state = .complete := congrArg (·.state) hwire
    exact nomatch herror.symm.trans hstate

/-- **Pieces of a request** are put together. -/
theorem feed_partial {a b : Bytes}
    (hwaits : (feedLoop (start a)).state ≠ .complete ∧ (feedLoop (start a)).state ≠ .error)
    (hfits : (feedLoop (start a)).buffer.length + b.length ≤ HttpParser.maxBufferSize) :
    (feedLoop (start a)).feed b = feedLoop (start (a ++ b)) := by
  rw [feed, if_neg (not_or.mpr hwaits)]
  dsimp only
  rw [List.length_append, if_neg (Nat.not_lt.mpr hfits)]
  exact feedLoop_more a b

end HttpRequestParser
end NeuStack
