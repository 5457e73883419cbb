import NeuStack.DeferredClose
import NeuStack.HttpClient

/-! # What the HTTP client hands over

The callbacks of a request on the connection that they are called with.  `on_connect` calls `send`
once and does not look at what it returns, and no other callback sends: of a request that is longer
than the room in the send buffer only the front is ever handed over, however much of the buffer is
acknowledged later (`HttpClient.request_handed_iff`).
-/
namespace NeuStack
variable {σ : Type} [ICongestionControl σ]

namespace Conn
variable {c c' c'' : Conn σ}

omit [ICongestionControl σ] in
theorem acceptedBytes_append (p : Ptr) (tr tr' : List Event) :
    acceptedBytes p (tr ++ tr') = acceptedBytes p tr ++ acceptedBytes p tr' := List.flatMap_append

/-- **What happens to the bytes of a connection that were accepted**: they become those of `data`
more. -/
structure Takes (data : List UInt8) (c c' : Conn σ) : Prop where
  ptr : c'.ptr = c.ptr
  bytes : acceptedBytes c.ptr c'.trace = acceptedBytes c.ptr c.trace ++ data

namespace Takes
variable {data data' : List UInt8}

omit [ICongestionControl σ] in
theorem refl (c : Conn σ) : Takes [] c c := ⟨rfl, (List.append_nil _).symm⟩

omit [ICongestionControl σ] in
theorem trans (h : Takes data c c') (h' : Takes data' c' c'') : Takes (data ++ data') c c'' := by
  refine ⟨h'.ptr.trans h.ptr, ?_⟩
  have hbytes := h'.bytes
  rw [h.ptr, h.bytes, List.append_assoc] at hbytes
  exact hbytes

omit [ICongestionControl σ] in
theorem trans_nil (h : Takes data c c') (h' : Takes [] c' c'') : Takes data c c'' :=
  List.append_nil data ▸ h.trans h'

omit [ICongestionControl σ] in
/-- A call that logs nothing of that kind takes nothing. -/
theorem of_events {evs : List Event} (hptr : c'.ptr = c.ptr) (htrace : c'.trace = c.trace ++ evs)
    (hbytes : ∀ ev ∈ evs, ev.bytes c.ptr = []) : Takes [] c c' := by
  have hnone : acceptedBytes c.ptr evs = [] := List.flatMap_eq_nil_iff.mpr hbytes
  exact ⟨hptr, by rw [htrace, acceptedBytes_append, hnone]⟩

omit [ICongestionControl σ] in
theorem of_flushes (h : c.Flushes c') : Takes [] c c' := by
  obtain ⟨evs, htrace, hbytes, -⟩ := h.log
  exact .of_events h.ptr htrace hbytes

omit [ICongestionControl σ] in
theorem accepted (c : Conn σ) (data : List UInt8) :
    Takes data c (c.log (.accepted c.ptr data)) := by
  refine ⟨rfl, ?_⟩
  have hone : acceptedBytes c.ptr [.accepted c.ptr data] = data := by
    rw [acceptedBytes, List.flatMap_singleton, Event.bytes, if_pos rfl]
  rw [log_trace, acceptedBytes_append, hone]

omit [ICongestionControl σ] in
theorem buffer (data : List UInt8) (c : Conn σ) : Takes [] c (c.buffer data) :=
  ⟨rfl, (List.append_nil _).symm⟩

end Takes

/-- **`send()` takes what there is room for.** -/
theorem takes_send (env : Env) (data : List UInt8) (hs : c.tcb.state.canSend = true) :
    Takes (data.take c.tcb.sendBuffer.available) c (c.send env data).2 := by
  have hroom : data.take (min data.length c.tcb.sendBuffer.available) =
      data.take c.tcb.sendBuffer.available := by
    rw [← List.take_take, List.take_of_length_le (List.length_take_le' ..)]
  rw [send, hs, Bool.not_true, if_neg Bool.false_ne_true, ← hroom]
  split
  · rename_i hempty
    rw [List.length_eq_zero_iff.mp hempty, List.take_nil]
    exact .refl c
  split
  · rename_i hfull
    rw [hfull, Nat.min_zero, List.take_zero]
    exact .refl c
  dsimp only
  generalize min data.length c.tcb.sendBuffer.available = n
  have htaken := Takes.accepted c (data.take n)
  have hbuffered := htaken.trans_nil (.buffer (data.take n) _)
  split
  · exact hbuffered
  split
  · exact hbuffered
  split
  · exact hbuffered
  -- some goes out at once, and the rest behind it
  generalize hsent : (c.log _).sendSegment env _ _ = c₁
  have hfirst : Takes (data.take n) c c₁ := by
    obtain ⟨evs, htrace, hbytes, -⟩ :=
      sendSegment_events env _ (c.log (.accepted c.ptr (data.take n)))
    rw [← hsent]
    exact htaken.trans_nil (.of_events (sendSegment_ptr ..) htrace hbytes)
  generalize hrest : (if _ < n then _ else c₁) = c₂
  have hsecond : Takes (data.take n) c c₂ := by
    rw [← hrest]
    split
    · exact hfirst.trans_nil (.buffer _ _)
    · exact hfirst
  dsimp only
  split
  · exact hsecond.trans_nil (.of_flushes (flushes_sendBufferedData env c₂))
  · exact hsecond

end Conn

/-! ## Callbacks on a connection -/

/-- A connection of the client, with the context that its callbacks share. -/
structure ClientLink (σ : Type) where
  conn : Conn σ
  ctx : RequestContext := {}

/-- What happens to a connection: something that the transport does by itself, or a callback. -/
inductive LinkInput where
  | transport (a : Conn.Action) (own : ∀ data, a ≠ .send data)
  | received (data : Bytes)
  | closed

namespace ClientLink

/-- What a callback does to the connection. -/
def perform (env : Env) (c : Conn σ) : ClientEvent → Conn σ
  | .respond _ _ => c
  | .send data => c.act (env, .send data)
  | .close => c.act (env, .close)

/-- A callback is called. -/
def callback (env : Env) (f : RequestContext → RequestContext) (l : ClientLink σ) : ClientLink σ :=
  { conn := ((f l.ctx).log.drop l.ctx.log.length).foldl (perform env) l.conn, ctx := f l.ctx }

/-- `on_connect`, with a connection and without an error. -/
def connected (env : Env) (requestData : Bytes) (c : Conn σ) : ClientLink σ :=
  (ClientLink.mk c {}).callback env fun ctx => ctx.onConnect requestData true 0

def step (l : ClientLink σ) (x : Env × LinkInput) : ClientLink σ :=
  match x.2 with
  | .transport a _ => { l with conn := l.conn.act (x.1, a) }
  | .received data => l.callback x.1 fun ctx => ctx.onReceive data
  | .closed => l.callback x.1 fun ctx => ctx.onClose

/-- **The whole request is handed over**: what the connection has accepted since `on_connect` was
called is the request. -/
def HandsOver (env : Env) (requestData : Bytes) (c : Conn σ) (xs : List (Env × LinkInput)) : Prop :=
  acceptedBytes c.ptr (GuardedRun.run step (connected env requestData c) xs).conn.trace =
    acceptedBytes c.ptr c.trace ++ requestData

/-! ## What the callbacks do -/

variable {l : ClientLink σ} {c : Conn σ}

/-- A callback that does not send takes nothing. -/
def Unsending (ev : ClientEvent) : Prop := ∀ data, ev ≠ .send data

theorem takes_perform (env : Env) (c : Conn σ) {ev : ClientEvent} (h : Unsending ev) :
    Conn.Takes [] c (perform env c ev) := by
  cases ev with
  | respond response error => exact .refl c
  | send data => exact absurd rfl (h data)
  | close => exact .of_flushes (Conn.flushes_act c (env, .close) nofun)

theorem takes_performs (env : Env) (evs : List ClientEvent) (h : ∀ ev ∈ evs, Unsending ev)
    (c : Conn σ) : Conn.Takes [] c (evs.foldl (perform env) c) := by
  induction evs generalizing c with
  | nil => exact .refl c
  | cons ev evs ih =>
    obtain ⟨hev, hrest⟩ := List.forall_mem_cons.mp h
    exact (takes_perform env c hev).trans_nil (ih hrest _)

theorem takes_callback (env : Env) {f : RequestContext → RequestContext} (l : ClientLink σ)
    (h : Grows Unsending l.ctx.log (f l.ctx).log) :
    Conn.Takes [] l.conn (l.callback env f).conn := by
  obtain ⟨evs, hlog, hevs⟩ := h
  rw [callback, hlog, List.drop_left]
  exact takes_performs env evs hevs l.conn

theorem grows_respond (response : HttpResponse) (error : Int) (ctx : RequestContext) :
    Grows Unsending ctx.log (ctx.respond response error).log := by
  rw [RequestContext.respond]
  split
  · exact .single fun _ hsend => by cases hsend
  · exact .refl _

theorem grows_onReceive (data : Bytes) (ctx : RequestContext) :
    Grows Unsending ctx.log (ctx.onReceive data).log := by
  rw [RequestContext.onReceive]
  dsimp only
  split
  · exact (grows_respond _ 0 { ctx with parser := ctx.parser.feed data }).trans
      (.single fun _ hsend => by cases hsend)
  · exact (grows_respond {} (-2) { ctx with parser := ctx.parser.feed data }).trans
      (.single fun _ hsend => by cases hsend)
  · exact .refl _

theorem grows_onClose (ctx : RequestContext) : Grows Unsending ctx.log ctx.onClose.log := by
  rw [RequestContext.onClose]
  split
  · split
    · exact grows_respond _ 0 ctx
    · exact grows_respond {} (-1) ctx
  · exact .refl _

/-- **Nothing that happens later takes more.** -/
theorem takes_step (l : ClientLink σ) (x : Env × LinkInput) :
    Conn.Takes [] l.conn (l.step x).conn := by
  obtain ⟨env, x⟩ := x
  cases x with
  | transport a own =>
    exact .of_flushes (Conn.flushes_act l.conn (env, a) fun data h => absurd h (own data))
  | received data => exact takes_callback env l (grows_onReceive data l.ctx)
  | closed => exact takes_callback env l (grows_onClose l.ctx)

theorem takes_run (l : ClientLink σ) (xs : List (Env × LinkInput)) :
    Conn.Takes [] l.conn (GuardedRun.run step l xs).conn := by
  induction xs generalizing l with
  | nil => exact .refl l.conn
  | cons x xs ih => exact (takes_step l x).trans_nil (ih (l.step x))

/-- **The connection gets what there is room for**, once and for all. -/
theorem takes_request (env : Env) (requestData : Bytes) (hs : c.tcb.state = .established)
    (xs : List (Env × LinkInput)) :
    Conn.Takes (requestData.take c.tcb.sendBuffer.available) c
      (GuardedRun.run step (connected env requestData c) xs).conn := by
  have hsend : Conn.Takes (requestData.take c.tcb.sendBuffer.available) c
      (connected env requestData c).conn := Conn.takes_send env requestData (by rw [hs]; rfl)
  exact hsend.trans_nil (takes_run _ xs)

end ClientLink

namespace HttpClient
open ClientLink (HandsOver)

/-- **The client sends its whole request** just when there is room for it as the connection is
reported, whatever is acknowledged, received or closed later. -/
theorem request_handed_iff (client : HttpClient) (serverIp : UInt32) (r : HttpRequest) {c : Conn σ}
    (hs : c.tcb.state = .established) (env : Env) (xs : List (Env × LinkInput)) :
    HandsOver env (client.fullRequest serverIp r).serialize c xs ↔
      (client.fullRequest serverIp r).serialize.length ≤ c.tcb.sendBuffer.available := by
  generalize (client.fullRequest serverIp r).serialize = requestData
  have htakes := (ClientLink.takes_request env requestData hs xs).bytes
  rw [HandsOver, htakes, List.append_cancel_left_eq, List.take_eq_self_iff]

/-! ### A small send buffer -/

/-- A host that has opened a connection, with a send buffer of `room` bytes. -/
def callingHost (room : Nat) : TCPConnectionManager (TCPCubic Unit) :=
  GuardedRun.run TCPConnectionManager.step
    { TCPConnectionManager.init 0x0a000001 with defaultOptions := { sendBufferSize := room } }
    [⟨.silent 0 0, .call (.connect 0x0a000002 80 5000 none)⟩,
      ⟨.silent 1 0, .segment
        ⟨0x0a000002, 0x0a000001, 80, 5000, 7000, 1, TCPFlags.syn ||| TCPFlags.ack, 65535, []⟩⟩]

/-- The connection, when it is reported. -/
def calling (room : Nat) : Conn (TCPCubic Unit) :=
  ⟨0, ((callingHost room).heap 0).getD {}, (callingHost room).trace⟩

def pageRequest : HttpRequest := { method := .get, path := ascii "/" }

def callingEnv : Env := (Context.silent 2 0 : Context (TCPCubic Unit)).toEnv

/-- The peer acknowledges so many bytes of the request. -/
def acknowledges (n : Nat) : List (Env × LinkInput) :=
  [(callingEnv, .transport (.processAck (BitVec.ofNat 32 (1 + n)) 65535) nofun)]

theorem request_handed_room :
    (calling 4096).tcb.state = .established ∧
      HandsOver callingEnv (({} : HttpClient).fullRequest 0x0a000002 pageRequest).serialize
        (calling 4096) (acknowledges 81) :=
  have hs : (calling 4096).tcb.state = .established := by decide +kernel
  ⟨hs, (request_handed_iff {} 0x0a000002 pageRequest hs callingEnv _).mpr (by decide +kernel)⟩

/-- **Of a longer request the rest is never handed over**, though all that was is acknowledged. -/
theorem request_cut :
    let requestData := (({} : HttpClient).fullRequest 0x0a000002 pageRequest).serialize
    let c := (GuardedRun.run ClientLink.step
      (ClientLink.connected callingEnv requestData (calling 16)) (acknowledges 16)).conn
    c.tcb.sendBuffer.empty = true ∧ c.tcb.sndUna = c.tcb.sndNxt ∧
      ¬ HandsOver callingEnv requestData (calling 16) (acknowledges 16) := by
  refine ⟨by decide +kernel, by decide +kernel, ?_⟩
  unfold HandsOver
  decide +kernel

end HttpClient
end NeuStack
