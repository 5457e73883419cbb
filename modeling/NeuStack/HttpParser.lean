import NeuStack.Delimited
import NeuStack.HttpTypes
import NeuStack.Resumable

/-! # The HTTP parsers

`http_parser.cpp`.  A parser is fed the bytes of one message in pieces.  What it has not
used yet is in its buffer; it stops where a line or the body is not complete.
-/
namespace NeuStack

inductive HttpState where
  | firstLine | headers | body | complete | error
  deriving DecidableEq, Repr

/-- `HttpParser`, the base of the two. -/
structure HttpParser where
  state : HttpState := .firstLine
  buffer : Bytes := []
  error : String := ""
  contentLength : Nat := 0
  deriving DecidableEq

namespace HttpParser

/-- `MAX_BUFFER_SIZE` -/
def maxBufferSize : Nat := 1024 * 1024

/-- `_buffer.find("\r\n")` and what stands before and behind it. -/
def cutLine (buffer : Bytes) : Option (Bytes × Bytes) := Delimited.cutPair 13 10 buffer

def fail (message : String) (p : HttpParser) : HttpParser :=
  { p with state := .error, error := message }

/-- A value without its leading spaces. -/
def trim (value : Bytes) : Bytes := value.dropWhile (· = 32)

/-- The content length that the headers give. -/
def contentLengthOf (headers : HttpHeaders) (default : Nat) : Nat :=
  match headers.findIgnoreCase (ascii "Content-Length") with
  | some value => StringUtils.stoulSafe value 0
  | none => default

/-- What the empty line behind the headers does. -/
def endHeaders (headers : HttpHeaders) (p : HttpParser) : HttpParser :=
  let contentLength := contentLengthOf headers p.contentLength
  { p with contentLength, state := if 0 < contentLength then .body else .complete }

/-- `parse_headers`: whether the headers have ended, well or not, and the headers.  Each
round uses up a line, so that as many rounds as there are bytes are enough. -/
@[grind =] def parseHeaders : Nat → HttpHeaders → HttpParser → Bool × HttpHeaders × HttpParser
  | 0, headers, p => (false, headers, p)
  | fuel + 1, headers, p =>
    match cutLine p.buffer with
    | none => (false, headers, p)
    | some ([], rest) => (true, headers, endHeaders headers { p with buffer := rest })
    | some (line, rest) =>
      let p := { p with buffer := rest }
      match Delimited.cutAt 58 line with
      | none => (true, headers, p.fail "Invalid header line")
      | some (key, value) => parseHeaders fuel (headers.add key (trim value)) p

/-- `parse_body`: the body, once it is complete. -/
def parseBody (p : HttpParser) : Option (Bytes × HttpParser) :=
  if p.contentLength ≤ p.buffer.length then
    some (p.buffer.take p.contentLength,
      { p with buffer := p.buffer.drop p.contentLength, state := .complete })
  else none

end HttpParser

/-! ## Requests -/

structure HttpRequestParser extends HttpParser where
  request : HttpRequest := {}
  deriving DecidableEq

namespace HttpRequestParser

/-- `params[key] = value` -/
def setParam (key value : Bytes) : List (Bytes × Bytes) → List (Bytes × Bytes)
  | [] => [(key, value)]
  | (k, v) :: rest => if k = key then (k, value) :: rest else (k, v) :: setParam key value rest

/-- `parse_query_string`, from what is left of the query. -/
def parseQueryString : Nat → Bytes → List (Bytes × Bytes) → List (Bytes × Bytes)
  | 0, _, params => params
  | fuel + 1, query, params =>
    let (pair, rest) :=
      match Delimited.cutAt 38 query with
      | some (pair, rest) => (pair, some rest)
      | none => (query, none)
    let params :=
      if pair = [] then params
      else
        match Delimited.cutAt 61 pair with
        | some (key, value) => setParam key value params
        | none => setParam pair [] params
    match rest with
    | some rest => parseQueryString fuel rest params
    | none => params

/-- `split_path_query` -/
def splitPathQuery (uri : Bytes) (r : HttpRequest) : HttpRequest :=
  match Delimited.cutAt 63 uri with
  | some (path, query) =>
    { r with
      path, rawQuery := query
      queryParams := parseQueryString (query.length + 1) query [] }
  | none => { r with path := uri }

/-- The method, the path and the version in a request line. -/
def requestLine (line : Bytes) : Option (Bytes × Bytes × Bytes) :=
  match Delimited.cutAt 32 line with
  | none => none
  | some (method, rest) =>
    match Delimited.cutAt 32 rest with
    | none => none
    | some (uri, version) => some (method, uri, version)

/-- `parse_request_line`, or nothing if the line is not complete. -/
def parseRequestLine (p : HttpRequestParser) : Option HttpRequestParser :=
  match HttpParser.cutLine p.buffer with
  | none => none
  | some (line, rest) =>
    let p := { p with buffer := rest }
    match requestLine line with
    | none => some { p with toHttpParser := p.fail "Invalid request line" }
    | some (method, uri, version) =>
      let request := splitPathQuery uri { p.request with method := .parse method }
      some { p with state := .headers, request := { request with version } }

/-- One pass of the loop in `feed`: whether the loop goes on. -/
def feedRound (p : HttpRequestParser) : Bool × HttpRequestParser :=
  match p.state with
  | .complete | .error => (false, p)
  | .firstLine =>
    match p.parseRequestLine with
    | none => (false, p)
    | some p => (true, p)
  | .headers =>
    let (ended, headers, q) :=
      HttpParser.parseHeaders (p.buffer.length + 1) p.request.headers p.toHttpParser
    (ended, { toHttpParser := q, request := { p.request with headers } })
  | .body =>
    match p.parseBody with
    | none => (false, p)
    | some (body, q) => (true, { toHttpParser := q, request := { p.request with body } })

/-- The loop of `feed`; a message has three parts. -/
def feedLoop (p : HttpRequestParser) : HttpRequestParser := Rounds.run feedRound 4 p

/-- `feed`, whose result (how many bytes it took: all, or none of a message that has
ended) is not used. -/
def feed (data : Bytes) (p : HttpRequestParser) : HttpRequestParser :=
  if p.state = .complete ∨ p.state = .error then p
  else
    let p := { p with buffer := p.buffer ++ data }
    if HttpParser.maxBufferSize < p.buffer.length then
      { p with toHttpParser := p.fail "Request too large" }
    else p.feedLoop

/-- `reset` -/
def reset (_ : HttpRequestParser) : HttpRequestParser := {}

end HttpRequestParser

/-! ## Responses -/

structure HttpResponseParser extends HttpParser where
  response : HttpResponse := {}
  chunked : Bool := false
  deriving DecidableEq

namespace HttpResponseParser

/-- The text of the status code in a status line. -/
def statusString (line : Bytes) : Option Bytes :=
  match Delimited.cutAt 32 line with
  | none => none
  | some (_, rest) =>
    match Delimited.cutAt 32 rest with
    | none => some rest
    | some (status, _) => some status

/-- `parse_status_line`, or nothing if the line is not complete. -/
def parseStatusLine (p : HttpResponseParser) : Option HttpResponseParser :=
  match HttpParser.cutLine p.buffer with
  | none => none
  | some (line, rest) =>
    let p := { p with buffer := rest }
    match statusString line with
    | none => some { p with toHttpParser := p.fail "Invalid status line" }
    | some status =>
      let code := StringUtils.stoiSafe status 0
      if code < 100 ∨ 599 < code then
        some { p with toHttpParser := p.fail "Invalid status code" }
      else some { p with state := .headers, response := { p.response with status := code.toNat } }

/-- Whether a value contains `"chunked"`. -/
def containsChunked (value : Bytes) : Bool := value.tails.any (ascii "chunked").isPrefixOf

/-- Whether the headers say that the transfer is chunked. -/
def chunkedOf (headers : HttpHeaders) (default : Bool) : Bool :=
  match headers.findIgnoreCase (ascii "Transfer-Encoding") with
  | some value => containsChunked value
  | none => default

/-- What `feed` checks behind the headers. -/
def checkChunked (p : HttpResponseParser) : Bool × HttpResponseParser :=
  let p := { p with chunked := chunkedOf p.response.headers p.chunked }
  if p.chunked ∧ p.state = .body then
    (false, { p with toHttpParser := p.fail "Chunked transfer not implemented" })
  else (true, p)

/-- One pass of the loop in `feed`: whether the loop goes on. -/
def feedRound (p : HttpResponseParser) : Bool × HttpResponseParser :=
  match p.state with
  | .complete | .error => (false, p)
  | .firstLine =>
    match p.parseStatusLine with
    | none => (false, p)
    | some p => (true, p)
  | .headers =>
    let (ended, headers, q) :=
      HttpParser.parseHeaders (p.buffer.length + 1) p.response.headers p.toHttpParser
    let p := { p with toHttpParser := q, response := { p.response with headers } }
    if ended then p.checkChunked
    else (false, p)
  | .body =>
    match p.parseBody with
    | none => (false, p)
    | some (body, q) =>
      (true, { p with toHttpParser := q, response := { p.response with body } })

/-- The loop of `feed`. -/
def feedLoop (p : HttpResponseParser) : HttpResponseParser := Rounds.run feedRound 4 p

/-- `feed` -/
def feed (data : Bytes) (p : HttpResponseParser) : HttpResponseParser :=
  if p.state = .complete ∨ p.state = .error then p
  else
    let p := { p with buffer := p.buffer ++ data }
    if HttpParser.maxBufferSize < p.buffer.length then
      { p with toHttpParser := p.fail "Response too large" }
    else p.feedLoop

/-- `reset` -/
def reset (_ : HttpResponseParser) : HttpResponseParser := {}

end HttpResponseParser
end NeuStack
