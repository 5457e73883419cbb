import NeuStack.HttpReceived
import NeuStack.HttpRequests
import NeuStack.HttpRetained

/-! # Parsing does not see the pieces

The bytes of a message may come in pieces, cut anywhere.  Whatever the cuts, the parsers end where
they end when they get it all at once (`feed_segmented`); a parser that has stopped ignores what
still comes, which the other keeps in its buffer.  That each `feed` ends, with all the loops in it,
is `loopsEnd`.
-/
namespace NeuStack
open HttpParser (parseHeaders maxBufferSize)

namespace MessageParser
variable {σ : Type} (m : MessageParser σ) (tooLarge : σ → σ)

/-- A parser that was fed some pieces. -/
def fed (start : σ) (pieces : List Bytes) : σ :=
  pieces.foldl (fun p data => m.feed tooLarge data p) start

theorem fed_snoc (start : σ) (pieces : List Bytes) (data : Bytes) :
    m.fed tooLarge start (pieces ++ [data]) = m.feed tooLarge data (m.fed tooLarge start pieces) :=
  List.foldl_concat ..

theorem partsLeft_lt (p : σ) : (m.base p).state.partsLeft < 4 := by
  cases (m.base p).state <;> decide

/-- What still comes does not matter to a parser that has stopped. -/
theorem run_more_stopped {p : σ} (h : (m.base p).state = .complete ∨ (m.base p).state = .error)
    (b : Bytes) : Rounds.run m.round 4 (m.more b p) = m.more b p :=
  m.run_stopped (by rwa [m.state_more]) 4

namespace Weighing
variable {m} {tooLarge} (w : m.Weighing)
  (hlarge : ∀ p, w.retained (tooLarge p) = w.retained p)
include hlarge

theorem retained_fed_le (start : σ) (pieces : List Bytes) :
    w.retained (m.fed tooLarge start pieces) ≤ w.retained start + pieces.flatten.length := by
  induction pieces using List.reverseRecOn with
  | nil => exact Nat.le_refl _
  | append_singleton pieces data ih =>
    have hfeed := w.retained_feed_le hlarge data (m.fed tooLarge start pieces)
    rw [fed_snoc, List.flatten_append, List.flatten_singleton, List.length_append]
    omega

omit hlarge in
/-- A parser that goes on takes what fits. -/
theorem feed_fits {p : σ} {data : Bytes}
    (hgoes : ¬ ((m.base p).state = .complete ∨ (m.base p).state = .error))
    (hfits : w.retained p + data.length ≤ maxBufferSize) :
    m.feed tooLarge data p = Rounds.run m.round 4 (m.more data p) := by
  have hbuffer : (m.base (m.more data p)).buffer.length ≤ w.retained (m.more data p) := by
    rw [retained, Nat.add_assoc]
    exact Nat.le_add_right ..
  rw [w.retained_more] at hbuffer
  rw [feed, if_neg hgoes, if_neg (by omega)]

/-- **The pieces do not matter**: but for what has come behind its end, a parser is where it would
be with all the bytes at once. -/
theorem feed_pieces {start : σ} (hstart : m.round start = (false, start)) {pieces : List Bytes}
    (hfits : w.retained start + pieces.flatten.length ≤ maxBufferSize) :
    ∃ rest, m.more rest (m.fed tooLarge start pieces) =
        Rounds.run m.round 4 (m.more pieces.flatten start) ∧
      (rest = [] ∨ (m.base (m.fed tooLarge start pieces)).state = .complete ∨
        (m.base (m.fed tooLarge start pieces)).state = .error) := by
  induction pieces using List.reverseRecOn with
  | nil =>
    refine ⟨[], ?_, .inl rfl⟩
    show m.more [] start = Rounds.run m.round 4 (m.more [] start)
    rw [m.more_nil, Rounds.run_of_waits hstart]
  | append_singleton pieces data ih =>
    have hweight := w.retained_fed_le hlarge start (pieces ++ [data])
    have hbefore := w.retained_fed_le hlarge start pieces
    have hflatten : (pieces ++ [data]).flatten = pieces.flatten ++ data := by
      rw [List.flatten_append, List.flatten_singleton]
    rw [hflatten, List.length_append] at hfits
    obtain ⟨rest, hrest, hcase⟩ := ih (by omega)
    -- the loop over all of it is the loop over the last piece, from where the others led
    have hresume := m.resumable.run_more (m.partsLeft_lt (m.more pieces.flatten start)) data
    rw [m.more_more, ← hflatten, ← hrest, m.more_more] at hresume
    rw [fed_snoc, hresume]
    by_cases hstopped : (m.base (m.fed tooLarge start pieces)).state = .complete ∨
        (m.base (m.fed tooLarge start pieces)).state = .error
    · rw [feed, if_pos hstopped]
      exact ⟨rest ++ data, (m.run_more_stopped hstopped _).symm, .inr hstopped⟩
    · obtain rfl := hcase.resolve_right hstopped
      rw [w.feed_fits hstopped (by omega)]
      exact ⟨[], m.more_nil _, .inl rfl⟩

variable (tooLarge) in
/-- In pieces and at once. -/
theorem exists_more_fed (start : σ) (hstart : m.round start = (false, start))
    (hgoes : ¬ ((m.base start).state = .complete ∨ (m.base start).state = .error))
    {pieces : List Bytes} (hfits : w.retained start + pieces.flatten.length ≤ maxBufferSize) :
    ∃ rest, m.more rest (m.fed tooLarge start pieces) = m.feed tooLarge pieces.flatten start := by
  obtain ⟨rest, hrest, -⟩ := w.feed_pieces hlarge hstart hfits
  exact ⟨rest, hrest.trans (w.feed_fits hgoes hfits).symm⟩

end Weighing
end MessageParser

/-! ## Requests -/

namespace HttpRequestParser
variable {p q : HttpRequestParser}

/-- What becomes of a request that is too large. -/
def tooLarge (p : HttpRequestParser) : HttpRequestParser :=
  { p with toHttpParser := p.fail "Request too large" }

theorem feed_eq (data : Bytes) (p : HttpRequestParser) :
    p.feed data = message.feed tooLarge data p := by
  rw [feed, MessageParser.feed, ← feedLoop_eq]
  rfl

/-- What is kept of a request, apart from its headers: the request line, and the body. -/
def kept (p : HttpRequestParser) : Nat :=
  p.request.path.length + p.request.rawQuery.length + p.request.version.length +
    p.request.body.length

theorem splitPathQuery_length (uri : Bytes) (r : HttpRequest) :
    (splitPathQuery uri r).path.length + (splitPathQuery uri r).rawQuery.length ≤
      uri.length + r.rawQuery.length := by
  rw [splitPathQuery]
  cases hcut : Delimited.cutAt 63 uri with
  | none => exact Nat.le_refl _
  | some cut =>
    obtain ⟨path, query⟩ := cut
    have hlength := congrArg List.length (Delimited.cutAt_eq_some hcut).1
    rw [List.length_append, List.length_cons] at hlength
    show path.length + query.length ≤ _
    omega

theorem length_requestLine {line method uri version : Bytes}
    (h : requestLine line = some (method, uri, version)) :
    line.length = method.length + uri.length + version.length + 2 := by
  rw [requestLine] at h
  cases hmethod : Delimited.cutAt 32 line with
  | none =>
    rw [hmethod] at h
    cases h
  | some cut =>
    obtain ⟨before, rest⟩ := cut
    rw [hmethod] at h
    dsimp only at h
    cases huri : Delimited.cutAt 32 rest with
    | none =>
      rw [huri] at h
      cases h
    | some cut =>
      obtain ⟨between, behind⟩ := cut
      rw [huri] at h
      cases h
      rw [(Delimited.cutAt_eq_some hmethod).1, (Delimited.cutAt_eq_some huri).1,
        List.length_append, List.length_cons, List.length_append, List.length_cons]
      omega

theorem parseRequestLine_kept (h : p.parseRequestLine = some q) :
    q.buffer.length + q.kept ≤ p.buffer.length + p.kept ∧
      q.request.headers = p.request.headers := by
  rw [parseRequestLine] at h
  cases hcut : HttpParser.cutLine p.buffer with
  | none =>
    rw [hcut] at h
    cases h
  | some cut =>
    obtain ⟨line, rest⟩ := cut
    have hlength := Delimited.length_of_cutPair hcut
    rw [hcut] at h
    dsimp only at h
    cases hline : requestLine line with
    | none =>
      rw [hline] at h
      cases h
      refine ⟨?_, rfl⟩
      show rest.length + p.kept ≤ _
      omega
    | some parts =>
      obtain ⟨method, uri, version⟩ := parts
      have hparts := length_requestLine hline
      have huri := splitPathQuery_length uri { p.request with method := .parse method }
      obtain ⟨hheaders, hbody⟩ := splitPathQuery_kept uri { p.request with method := .parse method }
      rw [hline] at h
      cases h
      refine ⟨?_, hheaders⟩
      rw [kept, kept]
      dsimp only at huri hbody ⊢
      rw [hbody]
      omega

def weighing : message.Weighing where
  kept := kept
  kept_more _ _ := rfl
  firstLine h := parseRequestLine_kept h
  kept_withHeaders _ _ _ := rfl
  check _ := ⟨rfl, rfl, rfl⟩
  withBody body q p := by
    refine ⟨rfl, ?_⟩
    show p.request.path.length + p.request.rawQuery.length + p.request.version.length +
      body.length ≤ p.kept + body.length
    rw [kept]
    omega

/-- A new parser after `feed` of some pieces. -/
def received (pieces : List Bytes) : HttpRequestParser :=
  pieces.foldl (fun p data => p.feed data) {}

theorem received_eq (pieces : List Bytes) : received pieces = message.fed tooLarge {} pieces := by
  rw [received, MessageParser.fed]
  exact congrArg (List.foldl · {} pieces) (funext fun p => funext fun data => feed_eq data p)

end HttpRequestParser

/-! ## Responses -/

namespace HttpResponseParser
variable {p q : HttpResponseParser}

/-- What becomes of a response that is too large. -/
def tooLarge (p : HttpResponseParser) : HttpResponseParser :=
  { p with toHttpParser := p.fail "Response too large" }

theorem feed_eq (data : Bytes) (p : HttpResponseParser) :
    p.feed data = message.feed tooLarge data p := by
  rw [feed, MessageParser.feed, ← feedLoop_eq]
  rfl

theorem parseStatusLine_kept (h : p.parseStatusLine = some q) :
    q.buffer.length ≤ p.buffer.length ∧ q.response.headers = p.response.headers ∧
      q.response.body = p.response.body := by
  rw [parseStatusLine] at h
  cases hcut : HttpParser.cutLine p.buffer with
  | none =>
    rw [hcut] at h
    cases h
  | some cut =>
    obtain ⟨line, rest⟩ := cut
    have hlength := Nat.le_of_lt (HttpParser.length_of_cutLine hcut)
    rw [hcut] at h
    dsimp only at h
    split at h
    · cases h
      exact ⟨hlength, rfl, rfl⟩
    · split at h
      · cases h
        exact ⟨hlength, rfl, rfl⟩
      · cases h
        exact ⟨hlength, rfl, rfl⟩

theorem checkChunked_kept (p : HttpResponseParser) :
    p.checkChunked.2.buffer = p.buffer ∧ p.checkChunked.2.response = p.response := by
  rw [checkChunked]
  dsimp only
  split
  · exact ⟨rfl, rfl⟩
  · exact ⟨rfl, rfl⟩

/-- What is kept of a response, apart from its headers, is the body. -/
def weighing : message.Weighing where
  kept p := p.response.body.length
  kept_more _ _ := rfl
  firstLine {p q} h := by
    obtain ⟨hbuffer, hheaders, hbody⟩ := parseStatusLine_kept h
    refine ⟨?_, hheaders⟩
    rw [hbody]
    exact Nat.add_le_add_right hbuffer _
  kept_withHeaders _ _ _ := rfl
  check p := by
    obtain ⟨hbuffer, hresponse⟩ := checkChunked_kept p
    exact ⟨hbuffer, congrArg (·.headers) hresponse, congrArg (·.body.length) hresponse⟩
  withBody _ _ _ := ⟨rfl, Nat.le_add_left ..⟩

theorem received_eq (pieces : List Bytes) : received pieces = message.fed tooLarge {} pieces := by
  rw [received, MessageParser.fed]
  exact congrArg (List.foldl · {} pieces) (funext fun p => funext fun data => feed_eq data p)

end HttpResponseParser

/-! ## The loops -/

/-- More rounds than the bytes of the query do not matter. -/
theorem HttpRequestParser.parseQueryString_fuel {n m : Nat} {query : Bytes}
    {params : List (Bytes × Bytes)} (hn : query.length < n) (hm : query.length < m) :
    parseQueryString n query params = parseQueryString m query params := by
  induction n generalizing m query params with
  | zero => exact absurd hn (Nat.not_lt_zero _)
  | succ n ih =>
    cases m with
    | zero => exact absurd hm (Nat.not_lt_zero _)
    | succ m =>
      rw [parseQueryString, parseQueryString]
      cases hcut : Delimited.cutAt 38 query with
      | none => rfl
      | some cut =>
        obtain ⟨pair, rest⟩ := cut
        have hlength := congrArg List.length (Delimited.cutAt_eq_some hcut).1
        rw [List.length_append, List.length_cons] at hlength
        exact ih (by omega) (by omega)

/-- **The loops of `feed` end**: its own after at most four rounds, that of `parse_headers` where it
has no line left, or at the end of the headers; that of `parse_query_string` has no more rounds
than the query has bytes, and one. -/
def LoopsEnd : Prop :=
  (∀ p : HttpRequestParser, ∃ n q, n ≤ 4 ∧
    Rounds.Stops HttpRequestParser.feedRound n p q ∧ p.feedLoop = q) ∧
  (∀ p : HttpResponseParser, ∃ n q, n ≤ 4 ∧
    Rounds.Stops HttpResponseParser.feedRound n p q ∧ p.feedLoop = q) ∧
  (∀ headers (p : HttpParser) n, p.buffer.length < n →
    HttpParser.HeadersRead headers p (parseHeaders n headers p) ∧
      parseHeaders n headers p = parseHeaders (p.buffer.length + 1) headers p) ∧
  ∀ query params n, query.length < n → HttpRequestParser.parseQueryString n query params =
    HttpRequestParser.parseQueryString (query.length + 1) query params

theorem MessageParser.loop_stops {σ : Type} (m : MessageParser σ) (p : σ) : ∃ n q, n ≤ 4 ∧
    Rounds.Stops m.round n p q ∧ Rounds.run m.round 4 p = q := by
  obtain ⟨n, q, hn, hstops⟩ := m.resumable.stops p
  have hleft := m.partsLeft_lt p
  exact ⟨n, q, by omega, hstops, hstops.run_eq (by omega)⟩

theorem loopsEnd : LoopsEnd := by
  refine ⟨fun p => ?_, fun p => ?_, fun headers p n hn => ?_, fun query params n hn => ?_⟩
  · rw [funext HttpRequestParser.feedRound_eq, p.feedLoop_eq]
    exact HttpRequestParser.message.loop_stops p
  · rw [funext HttpResponseParser.feedRound_eq, p.feedLoop_eq]
    exact HttpResponseParser.message.loop_stops p
  · exact ⟨HttpParser.parseHeaders_read hn, HttpParser.parseHeaders_fuel hn (Nat.lt_succ_self _)⟩
  · exact HttpRequestParser.parseQueryString_fuel hn (Nat.lt_succ_self _)

/-! ## In pieces and at once -/

/-- Both parsers come to the same in pieces and at once: the state, the text of the error, and the
message, if it is complete. -/
def SameAtOnce (pieces : List Bytes) : Prop :=
  ((HttpRequestParser.received pieces).state =
      (({} : HttpRequestParser).feed pieces.flatten).state ∧
    (HttpRequestParser.received pieces).error =
      (({} : HttpRequestParser).feed pieces.flatten).error ∧
    ((HttpRequestParser.received pieces).state = .complete →
      (HttpRequestParser.received pieces).request =
        (({} : HttpRequestParser).feed pieces.flatten).request)) ∧
  (HttpResponseParser.received pieces).state =
    (({} : HttpResponseParser).feed pieces.flatten).state ∧
  (HttpResponseParser.received pieces).error =
    (({} : HttpResponseParser).feed pieces.flatten).error ∧
  ((HttpResponseParser.received pieces).state = .complete →
    (HttpResponseParser.received pieces).response =
      (({} : HttpResponseParser).feed pieces.flatten).response)

/-- **Parsing does not depend on segmentation.**  Of at most `MAX_BUFFER_SIZE` bytes, in any pieces,
both parsers make what they make of them at once; and their loops end. -/
theorem feed_segmented (pieces : List Bytes) (hfits : pieces.flatten.length ≤ maxBufferSize) :
    SameAtOnce pieces ∧ LoopsEnd := by
  refine ⟨⟨?_, ?_⟩, loopsEnd⟩
  · obtain ⟨rest, hrest⟩ := HttpRequestParser.weighing.exists_more_fed
      HttpRequestParser.tooLarge (fun _ => rfl) {} rfl (by decide)
      (Nat.le_trans (Nat.le_of_eq (Nat.zero_add _)) hfits)
    rw [HttpRequestParser.received_eq, HttpRequestParser.feed_eq, ← hrest]
    exact ⟨rfl, rfl, fun _ => rfl⟩
  · obtain ⟨rest, hrest⟩ := HttpResponseParser.weighing.exists_more_fed
      HttpResponseParser.tooLarge (fun _ => rfl) {} rfl (by decide)
      (Nat.le_trans (Nat.le_of_eq (Nat.zero_add _)) hfits)
    rw [HttpResponseParser.received_eq, HttpResponseParser.feed_eq, ← hrest]
    exact ⟨rfl, rfl, fun _ => rfl⟩

/-- A cut between CR and LF, and an empty piece. -/
theorem feed_segmented_cut :
    SameAtOnce [ascii "GET / HTTP/1.1\r", [], ascii "\n\r\n"] ∧ LoopsEnd :=
  feed_segmented _ (by decide)

end NeuStack
