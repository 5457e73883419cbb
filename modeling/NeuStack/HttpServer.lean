import NeuStack.HttpParser

/-! # The HTTP server

`http_server.cpp`, for one connection: whatever the server keeps is kept for each
connection by itself.  The application is a parameter.  A handler is given how many
requests the connection has dispatched before, so that its answer may be any; the
results of the calls of `send` are a sequence.
-/
namespace NeuStack

/-- A handler, which may answer every time as it likes. -/
abbrev HttpHandler := Nat → HttpRequest → HttpResponse

/-- `IChunkedResponse`: the chunks that it has not produced yet.  An empty one is an
answer of `next_chunk` that has nothing to offer for now. -/
structure ChunkedResponse where
  totalSize : Nat
  contentType : Bytes
  chunks : List Bytes
  deriving DecidableEq

namespace ChunkedResponse

/-- `has_more` -/
def hasMore (g : ChunkedResponse) : Bool := !g.chunks.isEmpty

end ChunkedResponse

abbrev ChunkedHandler := Nat → HttpRequest → Option ChunkedResponse

structure HttpServer where
  routes : HttpMethod → Bytes → Option HttpHandler := fun _ _ => none
  chunkedRoutes : Bytes → Option ChunkedHandler := fun _ => none
  notFoundHandler : Option HttpHandler := none
  staticPrefix : Bytes := []
  staticDir : Bytes := []

/-- What is outside: the contents of the files when a request is dispatched, and what
`send` makes of each call. -/
structure Surroundings where
  file : Nat → Bytes → Option Bytes := fun _ _ => none
  accept : Nat → Int

/-- `ConnectionState` -/
structure ConnectionState where
  parser : HttpRequestParser := {}
  keepAlive : Bool := true
  pendingData : Bytes := []
  pendingOffset : Nat := 0
  chunkedGenerator : Option ChunkedResponse := none
  chunkedHeaderSent : Bool := false
  deriving DecidableEq

/-- What the server does to the application and to the connection. -/
inductive HttpEvent where
  | dispatch (request : HttpRequest)
  | send (data : Bytes) (result : Int)
  | close
  deriving DecidableEq

/-- A connection, what has been received on it, and what the server has done. -/
structure HttpConnection where
  state : Option ConnectionState := some {}
  received : Bytes := []
  log : List HttpEvent := []
  deriving DecidableEq

namespace HttpConnection

def emit (x : HttpEvent) (c : HttpConnection) : HttpConnection := { c with log := c.log ++ [x] }

/-- The requests that were dispatched. -/
def dispatched (c : HttpConnection) : List HttpRequest :=
  c.log.filterMap fun
    | .dispatch request => some request
    | _ => none

/-- How often `send` was called. -/
def sends (c : HttpConnection) : Nat :=
  c.log.countP fun
    | .send _ _ => true
    | _ => false

/-- `conn->send`, which takes no more than it is offered. -/
def send (s : Surroundings) (data : Bytes) (c : HttpConnection) : Int × HttpConnection :=
  let result := min (s.accept c.sends) data.length
  (result, c.emit (.send data result))

end HttpConnection

namespace HttpServer

/-! ## Registration -/

/-- `_routes[method][path] = handler` -/
def route (method : HttpMethod) (path : Bytes) (handler : HttpHandler) (s : HttpServer) :
    HttpServer :=
  { s with routes := fun m p => if m = method ∧ p = path then some handler else s.routes m p }

def get : Bytes → HttpHandler → HttpServer → HttpServer := route .get

def post : Bytes → HttpHandler → HttpServer → HttpServer := route .post

def put : Bytes → HttpHandler → HttpServer → HttpServer := route .put

def del : Bytes → HttpHandler → HttpServer → HttpServer := route .delete

/-- `get_chunked` -/
def getChunked (path : Bytes) (handler : ChunkedHandler) (s : HttpServer) : HttpServer :=
  { s with chunkedRoutes := fun p => if p = path then some handler else s.chunkedRoutes p }

/-- `set_not_found_handler` -/
def setNotFoundHandler (handler : HttpHandler) (s : HttpServer) : HttpServer :=
  { s with notFoundHandler := some handler }

/-- `serve_static` -/
def serveStatic (urlPrefix dirPath : Bytes) (s : HttpServer) : HttpServer :=
  { s with staticPrefix := urlPrefix, staticDir := dirPath }

/-! ## Dispatching -/

/-- `MIME_TYPES` -/
def mimeTypes : List (String × String) :=
  [(".html", "text/html"), (".htm", "text/html"), (".css", "text/css"),
    (".js", "application/javascript"), (".json", "application/json"), (".xml", "application/xml"),
    (".txt", "text/plain"), (".csv", "text/csv"), (".png", "image/png"), (".jpg", "image/jpeg"),
    (".jpeg", "image/jpeg"), (".gif", "image/gif"), (".svg", "image/svg+xml"),
    (".ico", "image/x-icon"), (".webp", "image/webp"), (".woff", "font/woff"),
    (".woff2", "font/woff2"), (".ttf", "font/ttf"), (".otf", "font/otf"),
    (".eot", "application/vnd.ms-fontobject"), (".zip", "application/zip"),
    (".gz", "application/gzip"), (".tar", "application/x-tar"), (".pdf", "application/pdf"),
    (".mp3", "audio/mpeg"), (".mp4", "video/mp4"), (".wasm", "application/wasm")]

/-- `get_extension`: from the last dot on. -/
def getExtension (path : Bytes) : Bytes :=
  if 46 ∈ path then 46 :: (path.reverse.takeWhile (· ≠ 46)).reverse else []

/-- `get_mime_type` -/
def getMimeType (path : Bytes) : Bytes :=
  match mimeTypes.find? fun e => ascii e.1 = getExtension path with
  | some (_, type) => ascii type
  | none => ascii "application/octet-stream"

/-- Whether `find` comes upon `pattern`. -/
def contains (pattern text : Bytes) : Bool := text.tails.any pattern.isPrefixOf

/-- A page of the server's own. -/
def page (status : Nat) (body : Bytes) : HttpResponse :=
  (({ status } : HttpResponse).contentType (ascii "text/html")).setBody body

def forbidden : HttpResponse := page 403 (ascii "<html><body><h1>403 Forbidden</h1></body></html>")

def notFound : HttpResponse := page 404 (ascii "<html><body><h1>404 Not Found</h1></body></html>")

/-- The static part of `dispatch`: the response, if there is one. -/
def dispatchStatic (s : HttpServer) (file : Bytes → Option Bytes) (request : HttpRequest) :
    Option HttpResponse :=
  if s.staticPrefix ≠ [] ∧ s.staticPrefix.isPrefixOf request.path ∧ request.method = .get then
    let relativePath := request.path.drop s.staticPrefix.length
    if contains (ascii "..") relativePath ∨ relativePath.head? = some 47 then some forbidden
    else
      let filePath := s.staticDir ++ ascii "/" ++ relativePath
      (file filePath).map fun content =>
        (({} : HttpResponse).setBody content).contentType (getMimeType filePath)
  else none

/-- `dispatch`, of the request with the number `n`. -/
def dispatch (s : HttpServer) (file : Bytes → Option Bytes) (n : Nat) (request : HttpRequest) :
    HttpResponse :=
  match s.routes request.method request.path with
  | some handler => handler n request
  | none =>
    match s.dispatchStatic file request with
    | some response => response
    | none =>
      match s.notFoundHandler with
      | some handler => handler n request
      | none => notFound

/-! ## Sending -/

/-- The loop that sends what is pending: whether all of it has been taken, the offset, and
the connection.  Each call that goes on takes a byte. -/
def sendLoop (s : Surroundings) (data : Bytes) : Nat → Nat → HttpConnection →
    Bool × Nat × HttpConnection
  | 0, offset, c => (true, offset, c)
  | fuel + 1, offset, c =>
    if offset < data.length then
      let (sent, c) := c.send s (data.drop offset)
      if sent ≤ 0 then (false, offset, c) else sendLoop s data fuel (offset + sent.toNat) c
    else (true, offset, c)

/-- The pending data of a connection through `sendLoop`. -/
def sendPending (s : Surroundings) (st : ConnectionState) (c : HttpConnection) :
    Bool × ConnectionState × HttpConnection :=
  let (done, offset, c) :=
    sendLoop s st.pendingData (st.pendingData.length - st.pendingOffset) st.pendingOffset c
  if done then (true, { st with pendingData := [], pendingOffset := 0 }, c)
  else (false, { st with pendingOffset := offset }, c)

/-- `flush_pending` -/
def flushPending (s : Surroundings) (st : ConnectionState) (c : HttpConnection) :
    Bool × ConnectionState × HttpConnection :=
  let (done, st, c) := sendPending s st c
  if done then (true, st, if st.keepAlive then c else c.emit .close) else (false, st, c)

/-- `send_response` -/
def sendResponse (s : Surroundings) (response : HttpResponse) (st : ConnectionState)
    (c : HttpConnection) : ConnectionState × HttpConnection :=
  (flushPending s { st with pendingData := response.serialize, pendingOffset := 0 } c).2

/-- The header of a chunked response. -/
def chunkedHeader (g : ChunkedResponse) (keepAlive : Bool) : Bytes :=
  ascii "HTTP/1.1 200 OK" ++ crlf ++ ascii "Content-Type: " ++ g.contentType ++ crlf ++
    ascii "Cache-Control: no-cache" ++ crlf ++
    (if 0 < g.totalSize then ascii "Content-Length: " ++ decimal g.totalSize ++ crlf
      else ascii "Transfer-Encoding: chunked" ++ crlf) ++
    (if keepAlive then [] else ascii "Connection: close" ++ crlf) ++ crlf

/-- The loop that generates and sends chunks: the chunks that are left, what of a chunk is
pending when `send` takes no more, and the connection. -/
def chunkLoop (s : Surroundings) : List Bytes → HttpConnection →
    List Bytes × Option Bytes × HttpConnection
  | [], c => ([], none, c)
  | chunk :: chunks, c =>
    if chunk = [] then (chunks, none, c)
    else
      let (done, offset, c) := sendLoop s chunk chunk.length 0 c
      if done then chunkLoop s chunks c else (chunks, some (chunk.drop offset), c)

/-- `send_next_chunk` -/
def sendNextChunk (s : Surroundings) (st : ConnectionState) (c : HttpConnection) :
    ConnectionState × HttpConnection :=
  match st.chunkedGenerator with
  | none => (st, c)
  | some g =>
    let st :=
      if st.chunkedHeaderSent then st
      else
        { st with
          pendingData := chunkedHeader g st.keepAlive, pendingOffset := 0
          chunkedHeaderSent := true }
    let (done, st, c) := sendPending s st c
    if done then
      let (chunks, rest, c) := chunkLoop s g.chunks c
      let g := { g with chunks }
      match rest with
      | some rest =>
        ({ st with chunkedGenerator := some g, pendingData := rest, pendingOffset := 0 }, c)
      | none =>
        if g.hasMore then ({ st with chunkedGenerator := some g }, c)
        else
          ({ st with chunkedGenerator := none }, if st.keepAlive then c else c.emit .close)
    else (st, c)

/-- `dispatch_chunked`: the state and the connection, if there is a generator. -/
def dispatchChunked (s : HttpServer) (u : Surroundings) (n : Nat) (request : HttpRequest)
    (st : ConnectionState) (c : HttpConnection) : Option (ConnectionState × HttpConnection) :=
  (s.chunkedRoutes request.path).bind fun handler =>
    (handler n request).map fun g =>
      sendNextChunk u { st with chunkedGenerator := some g, chunkedHeaderSent := false } c

/-! ## The callbacks -/

/-- What `on_receive` does with a complete request.  The parser is reset behind it, so the
loop around it ends after one round. -/
def serve (s : HttpServer) (u : Surroundings) (st : ConnectionState) (c : HttpConnection) :
    ConnectionState × HttpConnection :=
  let request := st.parser.request
  let n := c.dispatched.length
  let c := c.emit (.dispatch request)
  let st := { st with keepAlive := request.headers.get (ascii "Connection") ≠ ascii "close" }
  let chunked := if request.method = .get then s.dispatchChunked u n request st c else none
  match chunked with
  | some (st, c) => ({ st with parser := st.parser.reset }, c)
  | none =>
    let response := s.dispatch (u.file n) n request
    let response :=
      if st.keepAlive then response
      else response.setHeader (ascii "Connection") (ascii "close")
    let (st, c) := sendResponse u response st c
    let st := { st with parser := st.parser.reset }
    (st, if st.pendingData = [] ∧ st.keepAlive = false then c.emit .close else c)

/-- What `on_receive` does about a parse error. -/
def badRequest (u : Surroundings) (st : ConnectionState) (c : HttpConnection) :
    ConnectionState × HttpConnection :=
  let response := ({ status := 400 } : HttpResponse).setBody (ascii "Bad Request")
  let (st, c) := sendResponse u response st c
  (st, c.emit .close)

/-- What `on_receive` does once nothing is pending. -/
def parse (s : HttpServer) (u : Surroundings) (data : Bytes) (st : ConnectionState)
    (c : HttpConnection) : ConnectionState × HttpConnection :=
  let st := { st with parser := st.parser.feed data }
  match st.parser.state with
  | .complete => s.serve u st c
  | .error => badRequest u st c
  | _ => (st, c)

/-- `on_receive`, of a connection that the server has a state for. -/
def onReceive (s : HttpServer) (u : Surroundings) (data : Bytes) (st : ConnectionState)
    (c : HttpConnection) : ConnectionState × HttpConnection :=
  if st.chunkedGenerator.isSome then sendNextChunk u st c
  else if st.pendingData = [] then s.parse u data st c
  else
    let (_, st, c) := flushPending u st c
    if st.pendingData = [] then s.parse u data st c else (st, c)

/-- `poll`, of one connection. -/
def poll (u : Surroundings) (st : ConnectionState) (c : HttpConnection) :
    ConnectionState × HttpConnection :=
  if st.chunkedGenerator.isSome then sendNextChunk u st c
  else if st.pendingData = [] then (st, c)
  else (flushPending u st c).2

/-! ## A connection -/

inductive Input where
  | receive (data : Bytes)
  | poll
  | close

/-- One call from the transport or from the main loop. -/
def step (s : HttpServer) (u : Surroundings) (c : HttpConnection) : Input → HttpConnection
  | .receive data =>
    let c := { c with received := c.received ++ data }
    match c.state with
    | none => c
    | some st =>
      let (st, c) := s.onReceive u data st c
      { c with state := some st }
  | .poll =>
    match c.state with
    | none => c
    | some st =>
      let (st, c) := poll u st c
      { c with state := some st }
  | .close => { c with state := none }.emit .close

end HttpServer
end NeuStack
