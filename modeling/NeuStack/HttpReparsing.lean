import NeuStack.HttpHeaderLines
import NeuStack.HttpProduced

/-! # Parsing a request that was serialized

What the parser makes of the bytes of a request that it has produced.  The method, the path, the
version and the headers come back, in whatever order a map of headers is gone through; but the query
does not, since `serialize` leaves it out, the whole has to fit the buffer, and of two headers for
the length that differ in case either may come first (`HttpRequest.roundTrips_iff`).
-/
namespace NeuStack
open HttpParser (cutLine contentLengthOf maxBufferSize)
open StringUtils (iequals stoulSafe)

theorem HttpHeaders.findIgnoreCase_first {key name : Bytes} (hkey : iequals key name = true)
    (values : List Bytes) (headers : HttpHeaders) :
    findIgnoreCase name ((key, values) :: headers) = values.head? := by
  rw [findIgnoreCase, List.find?_cons, show iequals (key, values).1 name = true from hkey]
  rfl

/-! ## Methods -/

namespace HttpMethod

theorem parse_name (m : HttpMethod) : parse m.name = m := by cases m <;> decide

theorem name_word (m : HttpMethod) : 32 ∉ m.name := by cases m <;> decide

theorem name_line (m : HttpMethod) : cutLine m.name = none := by cases m <;> decide

end HttpMethod

namespace HttpRequest
variable {r : HttpRequest} {headers : HttpHeaders}

/-! ## Requests -/

/-- It is a request that a parser can produce, from some pieces. -/
def Produced (r : HttpRequest) : Prop :=
  ∃ pieces, (HttpRequestParser.received pieces).state = .complete ∧
    (HttpRequestParser.received pieces).request = r

/-- The same request; its maps have no order. -/
structure Same (p r : HttpRequest) : Prop where
  method : p.method = r.method
  path : p.path = r.path
  version : p.version = r.version
  raw_query : p.rawQuery = r.rawQuery
  query_params : p.queryParams.Perm r.queryParams
  headers : p.headers.Perm r.headers
  body : p.body = r.body

/-- What a fresh parser makes of a request that was serialized. -/
def reparsed (r : HttpRequest) : HttpRequestParser := HttpRequestParser.feed r.serialize {}

/-- How many bytes a request takes: a request line, header lines, an empty line and a body. -/
def wireSize (r : HttpRequest) : Nat :=
  r.method.name.length + r.path.length + r.version.length + 4 +
    (r.headers.map fun (key, values) =>
      (values.map fun value => key.length + value.length + 4).sum).sum + 2 + r.body.length

/-- **A request comes back**, in whatever order `serialize` goes through its headers. -/
def RoundTrips (r : HttpRequest) : Prop :=
  ∀ headers : HttpHeaders, headers.Perm r.headers →
    (reparsed { r with headers }).state = .complete ∧ (reparsed { r with headers }).request.Same r

/-- **What a request that was parsed is like.** -/
structure WellFormed (r : HttpRequest) : Prop where
  path_word : 32 ∉ r.path
  path_only : 63 ∉ r.path
  path_line : cutLine r.path = none
  version_line : cutLine r.version = none
  query_params : r.rawQuery = [] → r.queryParams = []
  headers : r.headers.Valid
  body_length : r.body.length = contentLengthOf r.headers 0

end HttpRequest

theorem WireRequest.wellFormed (r : WireRequest) : r.request.WellFormed := by
  obtain ⟨-, hline⟩ := (Delimited.cutPair_append_cons (by decide) (by decide)).mp r.one_line
  obtain ⟨huri, hversion⟩ := (Delimited.cutPair_append_cons (by decide) (by decide)).mp hline
  have hvalid : (HeaderField.collect [] r.fields).Valid := .collect r.fields .nil
  rw [request, HttpRequestParser.splitPathQuery]
  cases hcut : Delimited.cutAt 63 r.uri with
  | none =>
    exact ⟨r.uri_word, Delimited.cutAt_eq_none.mp hcut, huri, hversion, fun _ => rfl, hvalid,
      r.body_length⟩
  | some parts =>
    obtain ⟨path, query⟩ := parts
    obtain ⟨hsplit, honly⟩ := Delimited.cutAt_eq_some hcut
    have hword := r.uri_word
    rw [hsplit] at huri hword
    refine ⟨fun hmem => hword (List.mem_append_left _ hmem), honly, ?_, hversion, fun h => ?_,
      hvalid, r.body_length⟩
    · exact ((Delimited.cutPair_append_cons (by decide) (by decide)).mp huri).1
    · cases h
      rfl

namespace HttpRequest
variable {r : HttpRequest} {headers : HttpHeaders}

theorem Produced.wellFormed (h : r.Produced) : r.WellFormed := by
  obtain ⟨pieces, hcomplete, rfl⟩ := h
  obtain ⟨w, hw⟩ := HttpRequestParser.received_wire hcomplete
  rw [hw]
  exact w.wellFormed

/-! ## In one order of the headers -/

theorem length_serialize (hversion : r.version ≠ []) : r.serialize.length = r.wireSize := by
  have hvalues (key : Bytes) (values : List Bytes) :
      (values.flatMap fun value => key ++ ascii ": " ++ value ++ crlf).length =
        (values.map fun value => key.length + value.length + 4).sum := by
    rw [List.length_flatMap]
    congr 1
    refine List.map_congr_left fun value _ => ?_
    simp only [List.length_append]
    show key.length + 2 + value.length + 2 = _
    omega
  have hheaders : r.headers.serialize.length = (r.headers.map fun (key, values) =>
      (values.map fun value => key.length + value.length + 4).sum).sum := by
    rw [HttpHeaders.serialize, List.length_flatMap]
    congr 1
    exact List.map_congr_left fun e _ => hvalues e.1 e.2
  rw [serialize, if_neg hversion, wireSize, ← hheaders]
  simp only [List.length_append]
  show r.method.name.length + 1 + r.path.length + 1 + r.version.length + 2 + _ + 2 + _ = _
  omega

/-- The bytes are as many in every order. -/
theorem wireSize_perm (hperm : headers.Perm r.headers) :
    { r with headers }.wireSize = r.wireSize := by
  rw [wireSize, wireSize, (hperm.map _).sum_nat]

namespace WellFormed

/-- In another order of the headers, the request that is written is a head and a body. -/
theorem exists_head (h : r.WellFormed) (hversion : r.version ≠ [])
    (hperm : headers.Perm r.headers) : ∃ head : RequestHead,
      { r with headers }.serialize = head.wire r.body ∧
      head.request = { r with rawQuery := [], queryParams := [], headers, body := [] } := by
  obtain ⟨fields, hlines, hfields⟩ := (h.headers.perm hperm).exists_fields
  refine ⟨⟨r.method.name, r.path, r.version, fields, r.method.name_word, h.path_word, ?_⟩, ?_, ?_⟩
  · refine (Delimited.cutPair_append_cons (by decide) (by decide)).mpr ⟨r.method.name_line, ?_⟩
    exact (Delimited.cutPair_append_cons (by decide) (by decide)).mpr ⟨h.path_line, h.version_line⟩
  · rw [serialize, if_neg hversion, RequestHead.wire, hlines]
    simp only [List.append_assoc, List.cons_append]
    rfl
  · rw [RequestHead.request, HttpRequestParser.splitPathQuery,
      Delimited.cutAt_eq_none.mpr h.path_only, hfields, HttpMethod.parse_name]

theorem HttpRequestParser.fresh_reads :
    ¬ (({} : HttpRequestParser).state = .complete ∨ ({} : HttpRequestParser).state = .error) := by
  decide

/-- What the parser makes of it, where it fits the buffer. -/
theorem reparsed_of_fits (h : r.WellFormed) (hversion : r.version ≠ [])
    (hperm : headers.Perm r.headers)
    (hfits : { r with headers }.serialize.length ≤ maxBufferSize) :
    reparsed { r with headers } = Rounds.run HttpRequestParser.message.round 2
      (HttpRequestParser.behindHeaders
        { r with rawQuery := [], queryParams := [], headers, body := [] } headers r.body) := by
  obtain ⟨head, hwire, hrequest⟩ := h.exists_head hversion hperm
  rw [reparsed, HttpRequestParser.feed, if_neg HttpRequestParser.fresh_reads]
  dsimp only
  rw [List.nil_append, if_neg (Nat.not_lt.mpr hfits), hwire]
  refine (HttpRequestParser.feedLoop_head head r.body).trans ?_
  rw [hrequest]

/-- **In one order of the headers.** -/
theorem reparsed_iff (h : r.WellFormed) (hversion : r.version ≠ [])
    (hperm : headers.Perm r.headers) :
    (reparsed { r with headers }).state = .complete ∧
        (reparsed { r with headers }).request.Same r ↔
      r.rawQuery = [] ∧ r.wireSize ≤ maxBufferSize ∧
        contentLengthOf headers 0 = r.body.length := by
  have hsize : { r with headers }.serialize.length = r.wireSize :=
    (length_serialize (r := { r with headers }) hversion).trans (wireSize_perm hperm)
  by_cases hfits : r.wireSize ≤ maxBufferSize
  swap
  · -- the parser fails at once
    refine iff_of_false (fun hsame => ?_) fun hfit => hfits hfit.2.1
    rw [reparsed, HttpRequestParser.feed, if_neg HttpRequestParser.fresh_reads] at hsame
    dsimp only at hsame
    rw [List.nil_append, hsize, if_pos (Nat.not_le.mp hfits)] at hsame
    cases hsame.1
  rw [h.reparsed_of_fits hversion hperm (hsize ▸ hfits)]
  by_cases henough : contentLengthOf headers 0 ≤ r.body.length
  swap
  · -- the parser waits for more of the body
    refine iff_of_false (fun hsame => ?_) fun hfit => henough (Nat.le_of_eq hfit.2.2)
    rw [HttpRequestParser.run_behindHeaders_of_lt (Nat.not_le.mp henough)] at hsame
    cases hsame.1
  rw [HttpRequestParser.run_behindHeaders_of_le rfl henough]
  constructor
  · rintro ⟨-, hsame⟩
    have hbody := congrArg List.length hsame.body
    rw [List.length_take, Nat.min_eq_left henough] at hbody
    exact ⟨hsame.raw_query.symm, hfits, hbody⟩
  · rintro ⟨hquery, -, hlength⟩
    refine ⟨rfl, rfl, rfl, rfl, hquery.symm, ?_, hperm, ?_⟩
    · rw [h.query_params hquery]
    · show r.body.take _ = r.body
      rw [hlength, List.take_length]

/-! ## In every order -/

/-- **The length in every order**: each header for it has to say the same. -/
theorem contentLengthOf_iff (h : r.WellFormed) :
    (∀ headers : HttpHeaders, headers.Perm r.headers →
        contentLengthOf headers 0 = r.body.length) ↔
      ∀ key value values, (key, value :: values) ∈ r.headers →
        iequals key (ascii "Content-Length") = true → stoulSafe value 0 = r.body.length := by
  constructor
  · intro hall key value values hmem hkey
    -- the header that is asked for, first
    have hfirst := hall _ (List.perm_cons_erase hmem).symm
    rwa [contentLengthOf, HttpHeaders.findIgnoreCase_first hkey] at hfirst
  · intro hall headers hperm
    rw [contentLengthOf, HttpHeaders.findIgnoreCase]
    cases hfind : headers.find? fun e => iequals e.1 (ascii "Content-Length") with
    | none =>
      -- no header gives a length, and there is no body
      have hnone : r.headers.find? (fun e => iequals e.1 (ascii "Content-Length")) = none :=
        List.find?_eq_none.mpr fun e he => List.find?_eq_none.mp hfind e (hperm.mem_iff.mpr he)
      rw [h.body_length, contentLengthOf, HttpHeaders.findIgnoreCase, hnone]
    | some e =>
      obtain ⟨key, values⟩ := e
      have hmem : (key, values) ∈ r.headers := hperm.mem_iff.mp (List.mem_of_find?_eq_some hfind)
      obtain ⟨hne, -⟩ := h.headers.values _ hmem
      obtain ⟨value, values, rfl⟩ := List.exists_cons_of_ne_nil hne
      have hkey := List.find?_some hfind
      exact hall key value values hmem hkey

end WellFormed

/-- **When a request comes back.**  A request that the parser has produced is the same when it has
been serialized and parsed, exactly if its query is empty, it fits the buffer, and every header that
may be taken for its length gives the length of the body. -/
theorem roundTrips_iff (hproduced : r.Produced) (hversion : r.version ≠ []) :
    r.RoundTrips ↔
      r.rawQuery = [] ∧ r.wireSize ≤ maxBufferSize ∧
        ∀ key value values, (key, value :: values) ∈ r.headers →
          iequals key (ascii "Content-Length") = true → stoulSafe value 0 = r.body.length := by
  have h := hproduced.wellFormed
  rw [← h.contentLengthOf_iff]
  constructor
  · intro hsame
    have hperm (headers : HttpHeaders) (hp : headers.Perm r.headers) :=
      (h.reparsed_iff hversion hp).mp (hsame headers hp)
    obtain ⟨hquery, hfits, -⟩ := hperm r.headers (.refl _)
    exact ⟨hquery, hfits, fun headers hp => (hperm headers hp).2.2⟩
  · rintro ⟨hquery, hfits, hlength⟩ headers hp
    exact (h.reparsed_iff hversion hp).mpr ⟨hquery, hfits, hlength headers hp⟩

/-- A request with a body. -/
def posted : HttpRequest where
  method := .post
  path := ascii "/a"
  version := ascii "HTTP/1.1"
  headers := [(ascii "Content-Length", [ascii "2"])]
  body := ascii "hi"

theorem posted_roundTrips : posted.RoundTrips := by
  refine (roundTrips_iff
    ⟨[ascii "POST /a HTTP/1.1\r\nContent-Length:  2\r\n\r\nhi"], ?_, ?_⟩ ?_).mpr
    ⟨rfl, by decide +kernel, ?_⟩
  · decide +kernel
  · decide +kernel
  · decide
  · rintro key value values hmem -
    cases List.mem_singleton.mp hmem
    decide +kernel

/-- A request with a query. -/
def asked : HttpRequest where
  method := .get
  path := ascii "/a"
  version := ascii "HTTP/1.1"
  rawQuery := ascii "b=c"
  queryParams := [(ascii "b", ascii "c")]

/-- The query is lost. -/
theorem asked_lost : asked.Produced ∧ asked.method ≠ .unknown ∧ asked.version ≠ [] ∧
    (reparsed asked).state = .complete ∧ (reparsed asked).request.rawQuery = [] ∧
    ¬ asked.RoundTrips := by
  have hlost : (reparsed asked).request.rawQuery = [] := by decide +kernel
  refine ⟨⟨[ascii "GET /a?b=c HTTP/1.1\r\n\r\n"], ?_, ?_⟩, ?_, ?_, ?_, hlost, fun h => ?_⟩
  · decide +kernel
  · decide +kernel
  · decide
  · decide
  · decide +kernel
  · have hquery := (h asked.headers (.refl _)).2.raw_query
    exact nomatch hlost.symm.trans hquery

end HttpRequest
end NeuStack
