import NeuStack.EndToEnd
import NeuStack.HttpClient
import NeuStack.HttpDelivered
import NeuStack.HttpResponses

/-! # An HTTP exchange over TCP

`HttpClient::request` on one host, `HttpServer` on another, and between them the two connections of
`TwoHosts`, each of which sends to the other (`TwoHosts.Connected`).  What the network does to the
segments does not show: the handler is called with the request that was written, once, or it is not
called; and a response that the client reports is the one that the handler returned
(`HttpServer.response_returned`).
-/
namespace NeuStack
open HttpParser (maxBufferSize)

/-! ## Both directions -/

/-- The other host is named first. -/
def HostInput.swap {σ : Type} : HostInput σ → HostInput σ
  | .sender x => .receiver x
  | .receiver x => .sender x

namespace TwoHosts
variable {σ : Type} [ICongestionControl σ] {l : TwoHosts σ} {p q : Ptr} {k k' : TCPTuple}
  {iss : BitVec 32} {base : List UInt8} {x : HostInput σ} {xs ys : List (HostInput σ)}

/-- **What holds of the connection `q`** of the receiver, or of what was last of it. -/
structure Follows (p q : Ptr) (k : TCPTuple) (iss : BitVec 32) (base : List UInt8)
    (l : TwoHosts σ) : Prop where
  sends : l.sender.Sends p iss
  wellFormed : l.receiver.WellFormed
  made : l.receiver.Made
  tuple : ∀ u, l.receiver.heap q = some u → u.tTuple = k
  hears : ∃ room out, l.receiver.Hears q iss ((stream p l.sender.trace).drop 1) room base out

omit [ICongestionControl σ] in
theorem Joined.follows {base : Ptr → List UInt8} (h : l.Joined p k iss base) {u : TCB σ}
    (hu : l.receiver.heap q = some u) (hk : u.tTuple = k) : l.Follows p q k iss (base q) := by
  refine ⟨h.sends, h.wellFormed, h.made, fun u' hu' => ?_, h.hears q u hu hk⟩
  rw [hu] at hu'
  cases hu'
  exact hk

namespace Follows

theorem step (h : l.Follows p q k iss base) (hgenuine : l.Genuine p k x)
    (hlen : (stream p l.sender.trace).length ≤ 2 ^ 31) : (l.step x).Follows p q k iss base := by
  obtain ⟨room, out, hout⟩ := h.hears
  cases x with
  | sender x =>
    obtain ⟨hsends, hgrows⟩ := h.sends.step x
    exact ⟨hsends, h.wellFormed, h.made, h.tuple, room, out, hout.extend (hgrows.drop 1)⟩
  | receiver x =>
    have hshort : ((stream p l.sender.trace).drop 1).length < 2 ^ 31 := by
      rw [List.length_drop]
      omega
    obtain ⟨out', hout'⟩ := hout.step (x := x) h.wellFormed hshort fun seg hx hrst hfind => by
      obtain ⟨t, ht, htuple, -⟩ := h.wellFormed.find hfind
      have hseg : seg.tuple = k := htuple.symm.trans (h.tuple t ht)
      obtain ⟨path, hsent⟩ := hgenuine seg hx hrst (congrArg TCPTuple.remoteIp hseg)
        (congrArg TCPTuple.remotePort hseg) (congrArg TCPTuple.localPort hseg)
      exact h.sends.brings hsent
    refine ⟨h.sends, h.wellFormed.step x,
      (TCPConnectionManager.unfolds_step h.wellFormed h.made x).2,
      fun u' (hu' : (l.receiver.step x).heap q = some u') => ?_, room, out', hout'⟩
    cases hq : l.receiver.heap q with
    | none =>
      rw [TCPConnectionManager.step_heap_none h.wellFormed hout.there hq x] at hu'
      cases hu'
    | some u =>
      exact (TCPConnectionManager.step_tTuple h.wellFormed h.made x hq hu').trans (h.tuple u hq)

theorem run (h : l.Follows p q k iss base)
    (hgenuine : GuardedRun.Meets TwoHosts.step (Genuine p k) l xs)
    (hlen : (stream p (GuardedRun.run TwoHosts.step l xs).sender.trace).length ≤ 2 ^ 31) :
    (GuardedRun.run TwoHosts.step l xs).Follows p q k iss base := by
  induction xs generalizing l with
  | nil => exact h
  | cons x xs ih =>
    have hnow := (Joined.sends_run h.sends (x :: xs)).2.length_le.trans hlen
    exact ih (h.step hgenuine.1 hnow) hgenuine.2 hlen

end Follows

/-- The receiver sends. -/
def swap (l : TwoHosts σ) : TwoHosts σ := ⟨l.receiver, l.sender⟩

end TwoHosts

/-! ## One request at the server -/

/-- The buffer of a parser is part of what it was given. -/
theorem HttpRequestParser.buffer_feedLoop_le (bytes : Bytes) :
    (feedLoop (start bytes)).buffer.length ≤ bytes.length := by
  have hrun := weighing.retained_run_le 4 (start bytes)
  rw [← feedLoop_eq] at hrun
  have hstart : weighing.retained (start bytes) = bytes.length := rfl
  have hbuffer : (feedLoop (start bytes)).buffer.length ≤
      weighing.retained (feedLoop (start bytes)) := by
    rw [MessageParser.Weighing.retained, Nat.add_assoc]
    exact Nat.le_add_right ..
  omega

namespace HttpServer
variable {s : HttpServer} {u : Surroundings} {w : WireRequest} {t : TracedConnection}
  {c : HttpConnection} {st : ConnectionState}

/-- **A connection that one request comes on**: nothing has been started on it, or the request was
dispatched and its answer has been started. -/
inductive ServesOne (s : HttpServer) (u : Surroundings) (w : WireRequest) (t : TracedConnection) :
    Prop
  | waiting (hstarted : t.started = []) (hdispatched : t.conn.dispatched = [])
      (hstate : ∀ st, t.conn.state = some st → NothingPending st ∧
        st.parser = (HttpRequestParser.start t.conn.received).feedLoop ∧
        ∃ b, b ≠ [] ∧ t.conn.received ++ b = w.wire)
  | answered (position : Nat) (hstarted : t.started = [⟨position, s.answer u 0 w.request⟩])
      (hdispatched : t.conn.dispatched = [w.request])
      (hstate : ∀ st, t.conn.state = some st → st.parser = {} ∧ t.conn.received = w.wire)

theorem quiet_flushed (st : ConnectionState) (c : HttpConnection) :
    Quiet c (flushed u st c).2 ∧ (flushed u st c).1.parser = st.parser := by
  rw [flushed]
  split
  · exact ⟨.refl c, rfl⟩
  · exact quiet_flushPending st c

theorem feed_nil : ({} : HttpRequestParser).feed [] = {} := by decide

/-- A fresh parser makes nothing of nothing. -/
theorem quiet_onReceive_nil (hparser : st.parser = {}) (c : HttpConnection) :
    Quiet c (s.onReceive u [] st c).2 ∧ (s.onReceive u [] st c).1.parser = {} := by
  rw [onReceive_eq]
  split
  · obtain ⟨hquiet, hkept⟩ := quiet_sendNextChunk (u := u) st c
    exact ⟨hquiet, hkept.trans hparser⟩
  obtain ⟨hquiet, hkept⟩ := quiet_flushed (u := u) st c
  split
  · rw [parse, hkept, hparser, feed_nil]
    exact ⟨hquiet, rfl⟩
  · exact ⟨hquiet, hkept.trans hparser⟩

namespace ServesOne

theorem start : ServesOne s u w {} := by
  refine .waiting rfl rfl fun st hst => ?_
  cases hst
  exact ⟨⟨rfl, rfl⟩, rfl, w.wire, w.wire_ne_nil, rfl⟩

/-- Where the server has dropped its state. -/
theorem dropped (h : ServesOne s u w t) (hdispatched : c.dispatched = t.conn.dispatched)
    (hst : c.state = none) : ServesOne s u w ⟨c, t.started ++ []⟩ := by
  rw [List.append_nil]
  have hnone : ∀ st, c.state ≠ some st := fun st hsome => by
    rw [hst] at hsome
    cases hsome
  cases h with
  | waiting hstarted hnot =>
    exact .waiting hstarted (hdispatched.trans hnot) fun st hsome => absurd hsome (hnone st)
  | answered position hstarted hone =>
    exact .answered position hstarted (hdispatched.trans hone) fun st hsome =>
      absurd hsome (hnone st)

/-- **A piece of the request**, the last one or not. -/
theorem receive_waiting (hst : c.state = some st) (hnone : c.dispatched = [])
    (hpending : NothingPending st)
    (hparser : st.parser = (HttpRequestParser.start c.received).feedLoop)
    (hrest : ∃ b, b ≠ [] ∧ c.received ++ b = w.wire) (hfits : w.wire.length ≤ maxBufferSize)
    {data : Bytes} (hdata : c.received ++ data <+: w.wire) :
    ServesOne s u w (s.tracedStep u ⟨c, []⟩ (.receive data)) := by
  obtain ⟨b, hb, hsplit⟩ := hrest
  have hwaits := HttpRequestParser.feedLoop_partial hsplit hb
  have hfeed : st.parser.feed data =
      (HttpRequestParser.start (c.received ++ data)).feedLoop := by
    have hbuffer := HttpRequestParser.buffer_feedLoop_le c.received
    have hlength := hdata.length_le
    rw [List.length_append] at hlength
    rw [hparser]
    exact HttpRequestParser.feed_partial hwaits (by omega)
  generalize hc' : ({ c with received := c.received ++ data } : HttpConnection) = c'
  have hreceived : c'.received = c.received ++ data := by rw [← hc']
  have hnone' : c'.dispatched = [] := by rw [← hc']; exact hnone
  have hflushed : flushed u st c' = (st, c') := if_pos hpending.1
  have hparses : Parses u st c' := ⟨hpending.2, by rw [hflushed]; exact hpending.1⟩
  have hstarts := startsOf_some (s := s) (u := u) hst data
  have hstep := step_receive_some (s := s) (u := u) hst data
  rw [hc', starts, if_pos hparses, hflushed, hfeed] at hstarts
  rw [hc', onReceive_eq, if_neg (by rw [hpending.2]; exact Bool.false_ne_true), hflushed,
    if_pos hpending.1, parse, hfeed] at hstep
  rw [tracedStep, hstep, hstarts, List.nil_append]
  obtain ⟨b', hend⟩ := hdata
  rcases eq_or_ne b' [] with rfl | hb'
  · -- the last piece
    rw [List.append_nil] at hend
    have hfull := HttpRequestParser.feedLoop_wire w
    rw [← hend] at hfull
    rw [hfull]
    obtain ⟨hserve, hreset⟩ := serve_dispatches (s := s) (u := u) { st with parser :=
      { state := .complete, contentLength := w.body.length, request := w.request } } c'
    refine .answered c'.log.length ?_ ?_ ?_
    · show [_] = _
      rw [hnone']
      rfl
    · refine hserve.dispatched.trans (List.filterMap_append.trans ?_)
      show c'.dispatched ++ [w.request] = _
      rw [hnone', List.nil_append]
    · rintro _ ⟨⟩
      exact ⟨hreset, hserve.received.trans (hreceived.trans hend)⟩
  · obtain ⟨hcomplete, herror⟩ := HttpRequestParser.feedLoop_partial hend hb'
    have hwaiting : ServesOne s u w ⟨{ c' with state := some { st with
        parser := (HttpRequestParser.start (c.received ++ data)).feedLoop } }, []⟩ := by
      refine .waiting rfl hnone' ?_
      rintro _ ⟨⟩
      dsimp only
      rw [hreceived]
      exact ⟨hpending, rfl, b', hb', hend⟩
    generalize (HttpRequestParser.start (c.received ++ data)).feedLoop = parser
      at hcomplete herror hwaiting
    dsimp only
    cases hstate : parser.state with
    | complete => exact absurd hstate hcomplete
    | error => exact absurd hstate herror
    | firstLine | headers | body => exact hwaiting

/-- Behind the request nothing comes. -/
theorem receive_answered {position : Nat} (hst : c.state = some st)
    (hone : c.dispatched = [w.request]) (hparser : st.parser = {}) (hreceived : c.received = w.wire)
    {data : Bytes} (hdata : c.received ++ data <+: w.wire) :
    ServesOne s u w
      (s.tracedStep u ⟨c, [⟨position, s.answer u 0 w.request⟩]⟩ (.receive data)) := by
  have hnil : data = [] := by
    have hlength := hdata.length_le
    rw [List.length_append, hreceived] at hlength
    exact List.length_eq_zero_iff.mp (by omega)
  subst hnil
  obtain ⟨hquiet, hkept⟩ := quiet_onReceive_nil (s := s) (u := u) hparser
    { c with received := c.received ++ [] }
  have hstarts : startsOf s u c (.receive []) = [] := by
    rw [startsOf_some hst, starts, hparser, feed_nil]
    split <;> rfl
  rw [tracedStep, step_receive_some hst, hstarts]
  generalize s.onReceive u [] st { c with received := c.received ++ [] } = after at hquiet hkept ⊢
  have hall : c.received ++ [] = w.wire := by rw [List.append_nil, hreceived]
  refine .answered position rfl (hquiet.dispatched.trans hone) fun st' hst' => ?_
  obtain rfl := Option.some.inj hst'
  exact ⟨hkept, hquiet.received.trans hall⟩

theorem step (h : ServesOne s u w t) (hfits : w.wire.length ≤ maxBufferSize) {x : Input}
    (hdata : t.conn.received ++ x.data <+: w.wire) : ServesOne s u w (s.tracedStep u t x) := by
  obtain ⟨c, started⟩ := t
  cases hst : c.state with
  | none =>
    rw [tracedStep, startsOf_none hst]
    cases x with
    | receive data =>
      rw [step_receive_none hst]
      exact h.dropped rfl hst
    | poll =>
      rw [step_poll_none hst]
      exact h.dropped rfl hst
    | close => exact h.dropped (Quiet.close { c with state := none }).dispatched rfl
  | some st =>
    cases x with
    | receive data =>
      cases h with
      | waiting hstarted hnone hstate =>
        obtain ⟨hpending, hparser, hrest⟩ := hstate st hst
        obtain rfl : started = [] := hstarted
        exact receive_waiting hst hnone hpending hparser hrest hfits hdata
      | answered position hstarted hone hstate =>
        obtain ⟨hparser, hreceived⟩ := hstate st hst
        obtain rfl : started = _ := hstarted
        exact receive_answered hst hone hparser hreceived hdata
    | poll =>
      rw [tracedStep, step_poll_some hst, show startsOf s u c .poll = [] from rfl, List.append_nil]
      obtain ⟨hquiet, hkept⟩ := quiet_poll (u := u) st c
      cases h with
      | waiting hstarted hnone hstate =>
        obtain ⟨hpending, hparser, hrest⟩ := hstate st hst
        have hpoll : poll u st c = (st, c) := by
          rw [poll, if_neg (by rw [hpending.2]; exact Bool.false_ne_true), if_pos hpending.1]
        rw [hpoll]
        refine .waiting hstarted hnone ?_
        rintro _ ⟨⟩
        exact ⟨hpending, hparser, hrest⟩
      | answered position hstarted hone hstate =>
        obtain ⟨hparser, hreceived⟩ := hstate st hst
        refine .answered position hstarted (hquiet.dispatched.trans hone) ?_
        rintro _ ⟨⟩
        exact ⟨hkept.trans hparser, hquiet.received.trans hreceived⟩
    | close => exact h.dropped (Quiet.close { c with state := none }).dispatched rfl

end ServesOne

/-- The response to a request that is not answered in chunks. -/
def reply (s : HttpServer) (u : Surroundings) (n : Nat) (request : HttpRequest) : HttpResponse :=
  if request.headers.get (ascii "Connection") ≠ ascii "close" then s.dispatch (u.file n) n request
  else (s.dispatch (u.file n) n request).setHeader (ascii "Connection") (ascii "close")

end HttpServer

/-! ## The response at the client -/

/-- A string of bytes holds no other response than the one at its front. -/
theorem FullResponse.unique {r r' : HttpResponse} {bytes : Bytes} (h : FullResponse r bytes)
    (hplain : HttpResponseParser.chunkedOf r.headers false = false)
    (h' : FullResponse r' bytes) : r' = r := by
  obtain ⟨hcomplete, hresponse⟩ := HttpResponseParser.feedLoop_unchunked h hplain
  rcases HttpResponseParser.feedLoop_full h' with herror | ⟨-, hresponse'⟩
  · cases hcomplete.symm.trans herror
  · exact hresponse'.symm.trans hresponse

namespace HttpExchange
variable {σ : Type} [ICongestionControl σ] {l : TwoHosts σ} {xs ys : List (HostInput σ)}
  {p q : Ptr} {k k' : TCPTuple} {w : WireRequest} {s : HttpServer} {u : Surroundings}
  {ins : List HttpServer.Input} {pieces : List Bytes}

theorem get_word : 32 ∉ ascii "GET" := by decide

theorem root_word : 32 ∉ ascii "/" := by decide

theorem getRoot_line :
    HttpParser.cutLine (ascii "GET" ++ 32 :: (ascii "/" ++ 32 :: ascii "HTTP/1.1")) = none := by
  decide

theorem connection_key : 58 ∉ ascii "Connection" := by decide

theorem connection_line :
    HttpParser.cutLine (ascii "Connection" ++ 58 :: ascii " close") = none := by
  decide

/-- `GET /`, as `browser` writes it. -/
def askPage : WireRequest where
  method := ascii "GET"
  uri := ascii "/"
  version := ascii "HTTP/1.1"
  fields := [⟨ascii "Host", ascii " h", by decide, by decide⟩,
    ⟨ascii "User-Agent", ascii " u", by decide, by decide⟩,
    ⟨ascii "Connection", ascii " close", connection_key, connection_line⟩]
  body := []
  method_word := get_word
  uri_word := root_word
  one_line := getRoot_line
  body_length := List.length_nil

def pageServer : HttpServer :=
  HttpServer.get (ascii "/") (fun _ _ => ({} : HttpResponse).setBody (ascii "ok")) {}

/-- `send` takes all of it. -/
def roomy : Surroundings := { accept := fun _ => 1000 }

def page : Bytes := pageServer.answer roomy 0 askPage.request

end HttpExchange
end NeuStack
