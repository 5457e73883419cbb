import NeuStack.HttpReceived

/-! # The HTTP client

`http_client.cpp`.  `HttpClient::request` opens a connection and leaves three callbacks
with the transport, which share the response callback of the application; it is
forgotten once it has been called.  The parameters of `connect` apart, the program does
nothing with the connection but to send the request and to close.
-/
namespace NeuStack

/-- What the client does to the application and to the connection. -/
inductive ClientEvent where
  | respond (response : HttpResponse) (error : Int)
  | send (data : Bytes)
  | close
  deriving DecidableEq

/-- `RequestContext`; `armed` says that there is a callback. -/
structure RequestContext where
  parser : HttpResponseParser := {}
  armed : Bool := true
  log : List ClientEvent := []
  deriving DecidableEq

namespace RequestContext

def emit (x : ClientEvent) (ctx : RequestContext) : RequestContext :=
  { ctx with log := ctx.log ++ [x] }

/-- `ctx->callback(response, error)`, if there is a callback. -/
def respond (response : HttpResponse) (error : Int) (ctx : RequestContext) : RequestContext :=
  if ctx.armed then ctx.emit (.respond response error) else ctx

/-- `ctx->callback = nullptr` -/
def disarm (ctx : RequestContext) : RequestContext := { ctx with armed := false }

/-- The `on_connect` callback: with a connection or without one. -/
def onConnect (requestData : Bytes) (conn : Bool) (error : Int) (ctx : RequestContext) :
    RequestContext :=
  if error ≠ 0 ∨ conn = false then ctx.respond {} (-1) else ctx.emit (.send requestData)

/-- The `on_receive` callback. -/
def onReceive (data : Bytes) (ctx : RequestContext) : RequestContext :=
  let ctx := { ctx with parser := ctx.parser.feed data }
  match ctx.parser.state with
  | .complete => (ctx.respond ctx.parser.response 0).disarm.emit .close
  | .error => (ctx.respond {} (-2)).disarm.emit .close
  | _ => ctx

/-- The `on_close` callback. -/
def onClose (ctx : RequestContext) : RequestContext :=
  if ctx.armed then
    if ctx.parser.state ≠ .firstLine then (ctx.respond ctx.parser.response 0).disarm
    else (ctx.respond {} (-1)).disarm
  else ctx

/-- The calls of the response callback. -/
def responses (ctx : RequestContext) : List (HttpResponse × Int) :=
  ctx.log.filterMap fun
    | .respond response error => some (response, error)
    | _ => none

end RequestContext

/-- What the transport does for one `connect`: it refuses by its return value; or it
reports an error and nothing else; or it reports a connection, delivers pieces of the
stream, and may close. -/
inductive Exchange where
  | refused
  | failed (error : Int) (isError : error ≠ 0)
  | connected (pieces : List Bytes) (closed : Bool)

namespace Exchange

def received : Exchange → Bytes
  | connected pieces _ => pieces.flatten
  | _ => []

def Ended : Exchange → Prop
  | connected _ closed => closed = true
  | _ => True

/-- **The outcome of a request**: the callback is called once, and never twice, when the
exchange has ended, and with error 0 only for a full response. -/
structure Settled (e : Exchange) (responses : List (HttpResponse × Int)) : Prop where
  once : responses.length ≤ 1
  answered : e.Ended → responses.length = 1
  full : ∀ response, (response, 0) ∈ responses → FullResponse response e.received

/-- The connection was refused, or it closed behind the status line and before the end
of the response. -/
def CutShort : Exchange → Prop
  | refused => True
  | failed _ _ => False
  | connected pieces closed => closed = true ∧
    ((HttpResponseParser.received pieces).state = .headers ∨
      (HttpResponseParser.received pieces).state = .body)

end Exchange

/-- `ip_to_string` -/
def ipToString (addr : UInt32) : Bytes :=
  let part (shift : UInt32) := decimal ((addr >>> shift) &&& 0xFF).toNat
  part 24 ++ ascii "." ++ part 16 ++ ascii "." ++ part 8 ++ ascii "." ++ part 0

structure HttpClient where
  defaultHost : Bytes := []
  userAgent : Bytes := ascii "NeuStack/1.4"

namespace HttpClient

/-- A header that the request has already is kept. -/
def addMissing (key value : Bytes) (r : HttpRequest) : HttpRequest :=
  if r.headers.has key then r else { r with headers := r.headers.add key value }

/-- The request with the headers that it needs. -/
def fullRequest (c : HttpClient) (serverIp : UInt32) (r : HttpRequest) : HttpRequest :=
  let host := if c.defaultHost = [] then ipToString serverIp else c.defaultHost
  addMissing (ascii "Connection") (ascii "close")
    (addMissing (ascii "User-Agent") c.userAgent (addMissing (ascii "Host") host r))

/-- `request`, and what the transport does then. -/
def request (c : HttpClient) (serverIp : UInt32) (r : HttpRequest) : Exchange → RequestContext
  | .refused => {}
  | .failed error _ => RequestContext.onConnect (c.fullRequest serverIp r).serialize false error {}
  | .connected pieces closed =>
    let ctx := pieces.foldl (fun ctx data => ctx.onReceive data)
      (RequestContext.onConnect (c.fullRequest serverIp r).serialize true 0 {})
    if closed then ctx.onClose else ctx

/-- `get` -/
def get (c : HttpClient) (serverIp : UInt32) (path : Bytes) : Exchange → RequestContext :=
  c.request serverIp { method := .get, path }

/-- `post` -/
def post (c : HttpClient) (serverIp : UInt32) (path body contentType : Bytes) :
    Exchange → RequestContext :=
  c.request serverIp
    { method := .post, path, body
      headers := HttpHeaders.add (ascii "Content-Length") (decimal body.length)
        [(ascii "Content-Type", [contentType])] }

end HttpClient

/-! ## The outcome -/

namespace RequestContext
variable {ctx : RequestContext} {pieces : List Bytes}

/-- The context of a connection that has delivered `pieces`. -/
structure Serving (pieces : List Bytes) (ctx : RequestContext) : Prop where
  parser : ctx.parser = .received pieces
  waiting : ctx.armed = true → ctx.responses = [] ∧ ctx.parser.state ≠ .complete ∧
    ctx.parser.state ≠ .error
  stopped : ctx.armed = false → ctx.parser.state = .complete ∨ ctx.parser.state = .error
  settled : ctx.armed = false → ∃ response error, ctx.responses = [(response, error)] ∧
    (error = 0 → FullResponse response pieces.flatten)

@[simp] theorem responses_emit_respond (response : HttpResponse) (error : Int) :
    (ctx.emit (.respond response error)).responses = ctx.responses ++ [(response, error)] :=
  List.filterMap_append

@[simp] theorem responses_emit_close : (ctx.emit .close).responses = ctx.responses :=
  List.filterMap_append.trans (List.append_nil _)

@[simp] theorem responses_emit_send (data : Bytes) :
    (ctx.emit (.send data)).responses = ctx.responses :=
  List.filterMap_append.trans (List.append_nil _)

@[simp] theorem responses_disarm : ctx.disarm.responses = ctx.responses := rfl

theorem respond_keeps (response : HttpResponse) (error : Int) (ctx : RequestContext) :
    (ctx.respond response error).parser = ctx.parser := by
  rw [respond]
  split <;> rfl

/-- Whoever still waits is answered, and nobody else. -/
theorem Serving.answer {old : List Bytes} (h : Serving old ctx) {parser : HttpResponseParser}
    {response : HttpResponse} {error : Int}
    (hfull : ctx.armed = true → error = 0 → FullResponse response pieces.flatten)
    (hmono : ∀ r, FullResponse r old.flatten → FullResponse r pieces.flatten) :
    ∃ response' error',
      (respond response error { ctx with parser }).responses = [(response', error')] ∧
      (error' = 0 → FullResponse response' pieces.flatten) := by
  rw [respond]
  cases harmed : ctx.armed with
  | true =>
    have hnone : ({ ctx with parser } : RequestContext).responses = [] := (h.waiting harmed).1
    rw [if_pos rfl, responses_emit_respond, ← harmed, hnone]
    exact ⟨response, error, rfl, hfull harmed⟩
  | false =>
    rw [if_neg Bool.false_ne_true]
    obtain ⟨r, e, hresponses, hr⟩ := h.settled harmed
    exact ⟨r, e, harmed ▸ hresponses, fun he => hmono r (hr he)⟩

theorem Serving.onReceive (h : Serving pieces ctx) (data : Bytes) :
    Serving (pieces ++ [data]) (ctx.onReceive data) := by
  have hparser : ctx.parser.feed data = .received (pieces ++ [data]) := by
    rw [HttpResponseParser.received_snoc, h.parser]
  have hmono : ∀ r, FullResponse r pieces.flatten → FullResponse r (pieces ++ [data]).flatten := by
    intro r hr
    rw [List.flatten_append]
    exact hr.append _
  rw [RequestContext.onReceive, hparser]
  dsimp only
  split
  · rename_i hcomplete
    refine ⟨respond_keeps .., fun harmed => (by cases harmed), fun _ => Or.inl ?_, fun _ => ?_⟩
    · show (respond _ _ _).parser.state = _
      rw [respond_keeps]
      exact hcomplete
    · rw [responses_emit_close, responses_disarm]
      exact h.answer (fun _ _ => HttpResponseParser.received_complete hcomplete) hmono
  · rename_i herror
    refine ⟨respond_keeps .., fun harmed => (by cases harmed), fun _ => Or.inr ?_, fun _ => ?_⟩
    · show (respond _ _ _).parser.state = _
      rw [respond_keeps]
      exact herror
    · rw [responses_emit_close, responses_disarm]
      exact h.answer (fun _ hnone => absurd hnone (by decide)) hmono
  · rename_i hcomplete herror
    have harmed : ctx.armed = true := by
      by_contra hnot
      have hstopped := h.stopped (Bool.eq_false_iff.mpr hnot)
      rw [← hparser, HttpResponseParser.feed, if_pos hstopped] at hcomplete herror
      exact hstopped.elim hcomplete herror
    refine ⟨rfl, fun _ => ⟨(h.waiting harmed).1, hcomplete, herror⟩, fun hnot => ?_, fun hnot => ?_⟩
    · cases harmed.symm.trans hnot
    · cases harmed.symm.trans hnot

theorem Serving.foldl (h : Serving [] ctx) (pieces : List Bytes) :
    Serving pieces (pieces.foldl (fun ctx data => ctx.onReceive data) ctx) := by
  induction pieces using List.reverseRecOn with
  | nil => exact h
  | append_singleton pieces data ih =>
    rw [List.foldl_concat]
    exact ih.onReceive data

end RequestContext

namespace HttpClient

theorem serving_start (data : Bytes) :
    RequestContext.Serving [] (RequestContext.onConnect data true 0 {}) where
  parser := rfl
  waiting _ := ⟨rfl, nofun, nofun⟩
  stopped := nofun
  settled := nofun

/-- **When a request is settled**: exactly if it is not cut short. -/
theorem settled_iff (c : HttpClient) (serverIp : UInt32) (r : HttpRequest) (e : Exchange) :
    e.Settled (c.request serverIp r e).responses ↔ ¬ e.CutShort := by
  cases e with
  | refused => exact ⟨fun h => absurd (h.answered trivial) nofun, fun h => absurd trivial h⟩
  | failed error isError =>
    have hone : (c.request serverIp r (.failed error isError)).responses = [({}, -1)] := by
      rw [request, RequestContext.onConnect, if_pos (Or.inr rfl)]
      rfl
    rw [hone]
    refine ⟨fun _ => id, fun _ => ⟨Nat.le_refl _, fun _ => rfl, fun response hmem => ?_⟩⟩
    exact nomatch congrArg Prod.snd (List.mem_singleton.mp hmem)
  | connected pieces closed =>
    have hserving := (serving_start (c.fullRequest serverIp r).serialize).foldl pieces
    rw [request]
    generalize pieces.foldl _ _ = ctx at hserving ⊢
    cases harmed : ctx.armed with
    | false =>
      obtain ⟨response, error, hone, hfull⟩ := hserving.settled harmed
      have hclose : (if closed then ctx.onClose else ctx) = ctx := by
        rw [RequestContext.onClose, harmed, if_neg Bool.false_ne_true, ite_self]
      rw [hclose, hone]
      refine ⟨fun _ ⟨_, hstate⟩ => ?_,
        fun _ => ⟨Nat.le_refl _, fun _ => rfl, fun response' hmem => ?_⟩⟩
      · rw [← hserving.parser] at hstate
        rcases hserving.stopped harmed with h | h <;> rw [h] at hstate <;> simp at hstate
      · cases List.mem_singleton.mp hmem
        exact hfull rfl
    | true =>
      obtain ⟨hnone, hcomplete, herror⟩ := hserving.waiting harmed
      cases closed with
      | false =>
        rw [if_neg Bool.false_ne_true, hnone]
        exact ⟨fun _ h => absurd h.1 nofun, fun _ => ⟨Nat.zero_le _, nofun, nofun⟩⟩
      | true =>
        rw [if_pos rfl, RequestContext.onClose, harmed, if_pos rfl, RequestContext.respond,
          RequestContext.respond, harmed, if_pos rfl, if_pos rfl]
        by_cases hfirst : ctx.parser.state = .firstLine
        · rw [if_neg (not_not.mpr hfirst), RequestContext.responses_disarm,
            RequestContext.responses_emit_respond, hnone]
          refine ⟨fun _ ⟨_, hstate⟩ => ?_, fun _ => ⟨Nat.le_refl _, fun _ => rfl, fun _ hmem => ?_⟩⟩
          · rw [← hserving.parser, hfirst] at hstate
            simp at hstate
          · exact nomatch congrArg Prod.snd (List.mem_singleton.mp hmem)
        · have hbetween : ctx.parser.state = .headers ∨ ctx.parser.state = .body := by
            cases hstate : ctx.parser.state <;> simp_all
          rw [if_pos hfirst, RequestContext.responses_disarm,
            RequestContext.responses_emit_respond, hnone]
          rw [hserving.parser] at hbetween
          refine ⟨fun h => ?_, fun h => absurd ⟨rfl, hbetween⟩ h⟩
          exact absurd (h.full _ (List.mem_singleton_self _))
            (HttpResponseParser.received_between hbetween _)

/-- Two of the five bytes of the body arrive before the connection closes. -/
def truncated : Exchange :=
  .connected [ascii "HTTP/1.1 200 OK\r\nContent-Length: 5\r\n\r\nab"] true

/-- The response that is short of three bytes is reported with error 0. -/
theorem truncated_reported : ¬ truncated.Settled
    (({} : HttpClient).request 0xC0A86401 { method := .get, path := ascii "/" } truncated).responses := by
  intro h
  have hreported : (({ headers := [(ascii "Content-Length", [ascii "5"])] } : HttpResponse), 0) ∈
      (({} : HttpClient).request 0xC0A86401 { method := .get, path := ascii "/" }
        truncated).responses := by
    decide +kernel
  exact HttpResponseParser.received_between (Or.inr (by decide +kernel)) _ (h.full _ hreported)

end HttpClient
end NeuStack
