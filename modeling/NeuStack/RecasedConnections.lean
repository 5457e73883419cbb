import NeuStack.FoldedConnections
import NeuStack.RecasedRequests

/-! # Connections with recased headers

The server decides by the header `Connection`, spelled exactly so, whether it keeps a
connection.  Two byte strings that differ in the case of header names are treated in the same way
if and only if this decision is the same for the two requests (`sameTreatment_iff`).  Else one of
two connections that should be equal is closed.
-/
namespace NeuStack
open HttpParser (trim)
open HeaderField (lines collect)
open HttpRequestParser (feedLoop start Reading)

/-! ## The decision -/

/-- **A request that asks, in the server's own spelling, to close the connection.** -/
def WireRequest.Closes (r : WireRequest) : Prop :=
  ∃ f ∈ r.fields, f.key = ascii "Connection" ∧ trim f.value = ascii "close"

instance (r : WireRequest) : Decidable r.Closes :=
  inferInstanceAs (Decidable (∃ f ∈ r.fields, _))

theorem HttpHeaders.get_collect {fields : List HeaderField} {key value : Bytes}
    (h : (fields.map (·.key)).Nodup) (hvalue : value ≠ []) :
    (collect [] fields).get key = value ↔ ∃ f ∈ fields, f.key = key ∧ trim f.value = value := by
  rw [HeaderField.collect_distinct h]
  induction fields with
  | nil => exact iff_of_false (Ne.symm hvalue) fun ⟨f, hf, _⟩ => nomatch hf
  | cons f fields ih =>
    rw [List.map_cons, List.nodup_cons] at h
    have hget : HttpHeaders.get key ((f :: fields).map fun f => (f.key, [trim f.value])) =
        if key = f.key then trim f.value
        else HttpHeaders.get key (fields.map fun f => (f.key, [trim f.value])) := by
      rw [HttpHeaders.get, List.map_cons, List.lookup_cons]
      by_cases hkey : key = f.key
      · rw [if_pos hkey, beq_iff_eq.mpr hkey]
        rfl
      · rw [if_neg hkey, beq_eq_false_iff_ne.mpr hkey]
        rfl
    rw [hget]
    by_cases hkey : key = f.key
    · rw [if_pos hkey]
      constructor
      · exact fun heq => ⟨f, List.mem_cons_self, hkey.symm, heq⟩
      · rintro ⟨f', hf', hkey', heq⟩
        rcases List.mem_cons.mp hf' with rfl | hmem
        · exact heq
        · refine absurd (List.mem_map.mpr ⟨f', hmem, ?_⟩) h.1
          exact hkey'.trans hkey
    · rw [if_neg hkey, ih h.2]
      constructor
      · exact fun ⟨f', hf', heq⟩ => ⟨f', List.mem_cons_of_mem _ hf', heq⟩
      · rintro ⟨f', hf', hkey', heq⟩
        rcases List.mem_cons.mp hf' with rfl | hmem
        · exact absurd hkey'.symm hkey
        · exact ⟨f', hmem, hkey', heq⟩

theorem WireRequest.get_connection {a : Bytes} {r : WireRequest} (hnames : DistinctNames a)
    (hr : r.wire <+: a) :
    r.request.headers.get (ascii "Connection") = ascii "close" ↔ r.Closes := by
  obtain ⟨tail, rfl⟩ := hr
  refine HttpHeaders.get_collect (HeaderField.keys_nodup ?_) (by decide)
  refine hnames _ r.fields (crlf ++ r.body ++ tail) r.one_line ?_
  simp only [WireRequest.wire, WireRequest.requestLine, List.append_assoc]

/-- The request at the front of the bytes of one. -/
theorem WireRequest.closes_front {r r' : WireRequest} (hnames : DistinctNames r.wire)
    (h : r'.wire <+: r.wire) : r'.Closes ↔ r.Closes := by
  have hwire := HttpRequestParser.feedLoop_wire r
  have hrequest := HttpRequestParser.feedLoop_front (by rw [hwire]) List.prefix_rfl h
  rw [hwire] at hrequest
  rw [← get_connection hnames h, ← get_connection hnames List.prefix_rfl]
  exact iff_of_eq (congrArg (HttpHeaders.get _ ·.headers = _) hrequest.symm)

theorem HttpRequest.Alike.folded {r r' : HttpRequest} (h : r.Alike r') : r.folded = r'.folded := by
  obtain ⟨hrest, hheaders⟩ := h
  have hnames : r.headers.map (fun e => (e.1.map StringUtils.toLower, e.2)) =
      r'.headers.map fun e => (e.1.map StringUtils.toLower, e.2) := by
    generalize r'.headers = headers at hheaders
    generalize r.headers = headers at hheaders
    induction hheaders with
    | nil => rfl
    | cons he _ ih => rw [List.map_cons, List.map_cons, ih, beq_iff_eq.mp he.1, he.2]
  rw [HttpRequest.folded, HttpRequest.folded, hnames, ← hrest]

namespace HttpServer
variable {s : HttpServer} {u : Surroundings} {st st' : ConnectionState} {c c' : HttpConnection}

/-! ## Two connections -/

/-- Calls that differ in the bytes that are received, but not in their number. -/
inductive Input.SameShape : Input → Input → Prop
  | receive {data data' : Bytes} (hlength : data.length = data'.length) :
      SameShape (.receive data) (.receive data')
  | poll : SameShape .poll .poll
  | close : SameShape .close .close

/-- **Where two connections are together**: both parsers wait for more, or have failed; or both
requests have been served, and what is to come is the same. -/
inductive Coupled (a a' rest rest' : Bytes) :
    Option ConnectionState → Option ConnectionState → Prop
  | closed : Coupled a a' rest rest' none none
  | reads {st st' : ConnectionState} {x x' : Bytes} (hreading : Reading a a' x x' rest rest')
      (hwaits : (feedLoop (start x)).state ≠ .complete ∧ (feedLoop (start x)).state ≠ .error)
      (hparser : st.parser = feedLoop (start x)) (hparser' : st'.parser = feedLoop (start x'))
      (hidle : st.chunkedGenerator = none) (hnone : st.pendingData = []) :
      Coupled a a' rest rest' (some st) (some st')
  | failed {st st' : ConnectionState} (hstate : st.parser.state = .error)
      (hstate' : st'.parser.state = .error) : Coupled a a' rest rest' (some st) (some st')
  | served {st st' : ConnectionState} (hrest : rest = rest') (hparser : st.parser = st'.parser) :
      Coupled a a' rest rest' (some st) (some st')

/-- What is pending on both goes out in the same way. -/
theorem onReceive_cases {data data' : Bytes} (hfolded : folded (st, c) = folded (st', c'))
    {P : ConnectionState × HttpConnection → ConnectionState × HttpConnection → Prop}
    (h : ∀ p p', folded p = folded p' → p.1.parser = st.parser → p'.1.parser = st'.parser →
      P p p' ∧ P (s.parse u data p.1 p.2) (s.parse u data' p'.1 p'.2)) :
    P (s.onReceive u data st c) (s.onReceive u data' st' c') := by
  have hst : st.folded = st'.folded := congrArg Prod.fst hfolded
  have hc : c.folded = c'.folded := congrArg Prod.snd hfolded
  have hgenerator : st.chunkedGenerator = st'.chunkedGenerator :=
    (congrArg ConnectionState.chunkedGenerator hst :)
  have hpending : st.pendingData = st'.pendingData :=
    (congrArg ConnectionState.pendingData hst :)
  rw [onReceive, onReceive, ← hgenerator, ← hpending]
  split
  · have hchunk := folded_sendNextChunk (u := u) st c
    rw [hst, hc, folded_sendNextChunk] at hchunk
    exact (h _ _ hchunk.symm (quiet_sendNextChunk st c).2 (quiet_sendNextChunk st' c').2).1
  split
  · exact (h (st, c) (st', c') hfolded rfl rfl).2
  have hflush := congrArg Prod.snd (folded_flushPending (u := u) st c)
  rw [hst, hc, folded_flushPending] at hflush
  have hboth := h (flushPending u st c).2 (flushPending u st' c').2 hflush.symm
    (quiet_flushPending st c).2 (quiet_flushPending st' c').2
  generalize flushPending u st c = p at hflush hboth ⊢
  generalize flushPending u st' c' = p' at hflush hboth ⊢
  obtain ⟨done, st, c⟩ := p
  obtain ⟨done', st', c'⟩ := p'
  have hleft : st'.pendingData = st.pendingData :=
    congrArg (fun p => ConnectionState.pendingData p.1) hflush
  dsimp only
  rw [hleft]
  split
  · exact hboth.2
  · exact hboth.1

/-- What becomes of two connections together. -/
structure Together (a a' rest rest' : Bytes) (p p' : ConnectionState × HttpConnection) : Prop where
  folded : folded p = folded p'
  coupled : Coupled a a' rest rest' (some p.1) (some p'.1)

theorem together_badRequest {a a' rest rest' : Bytes} (hfolded : folded (st, c) = folded (st', c'))
    (hstate : st.parser.state = .error) (hstate' : st'.parser.state = .error) :
    Together a a' rest rest' (badRequest u st c) (badRequest u st' c') := by
  have hbad := folded_badRequest (u := u) st c
  rw [show st.folded = st'.folded from congrArg Prod.fst hfolded,
    show c.folded = c'.folded from congrArg Prod.snd hfolded, folded_badRequest] at hbad
  refine ⟨hbad.symm, .failed ?_ ?_⟩
  · rwa [show (badRequest u st c).1.parser = st.parser from (quiet_flushPending ..).2]
  · rwa [show (badRequest u st' c').1.parser = st'.parser from (quiet_flushPending ..).2]

theorem together_serve (hs : s.CaseBlind) {a a' rest : Bytes}
    (hfolded : folded (st, c) = folded (st', c'))
    (hrequest : st.parser.request.folded = st'.parser.request.folded)
    (hkeep : st.parser.request.headers.get (ascii "Connection") = ascii "close" ↔
      st'.parser.request.headers.get (ascii "Connection") = ascii "close") :
    Together a a' rest rest (s.serve u st c) (s.serve u st' c') := by
  refine ⟨?_, .served rfl ?_⟩
  · rw [serve_eq, serve_eq, ← folded_serveAs hs, ← folded_serveAs hs, hrequest,
      show st.folded = st'.folded from congrArg Prod.fst hfolded,
      show c.folded = c'.folded from congrArg Prod.snd hfolded]
    simp only [ne_eq, hkeep]
  · rw [(serve_dispatches st c).2, (serve_dispatches st' c').2]

theorem onReceive_idle (hidle : st.chunkedGenerator = none) (hnone : st.pendingData = [])
    (data : Bytes) : s.onReceive u data st c = s.parse u data st c := by
  rw [onReceive, hidle, if_neg (by simp), if_pos hnone]

theorem parse_complete {data : Bytes} (h : (st.parser.feed data).state = .complete) :
    s.parse u data st c = s.serve u { st with parser := st.parser.feed data } c := by
  rw [parse]
  simp only [h]

theorem parse_error {data : Bytes} (h : (st.parser.feed data).state = .error) :
    s.parse u data st c = badRequest u { st with parser := st.parser.feed data } c := by
  rw [parse]
  simp only [h]

theorem parse_waits {data : Bytes} (h : (st.parser.feed data).state ≠ .complete)
    (h' : (st.parser.feed data).state ≠ .error) :
    s.parse u data st c = ({ st with parser := st.parser.feed data }, c) := by
  rw [parse]
  dsimp only
  split
  · rename_i hstate
    exact absurd hstate h
  · rename_i hstate
    exact absurd hstate h'
  · rfl

/-- **The same decision**: of the requests at the front, if the first is let through, both ask
to close the connection or neither does. -/
def SameDecision (a a' : Bytes) : Prop :=
  ∀ r r' : WireRequest, r.Fits → r.wire <+: a → r'.wire <+: a' → (r.Closes ↔ r'.Closes)

variable {a a' data data' rest rest' : Bytes}

/-- What the parsers make of a piece. -/
theorem together_reads (hs : s.CaseBlind) (hrecased : Recased a a') (hnames : DistinctNames a)
    (hnames' : DistinctNames a') (hdecision : SameDecision a a')
    (hdata : data.length = data'.length) (hfolded : folded (st, c) = folded (st', c'))
    {x x' : Bytes} (hreading : Reading a a' x x' (data ++ rest) (data' ++ rest'))
    (hwaits : (feedLoop (start x)).state ≠ .complete ∧ (feedLoop (start x)).state ≠ .error)
    (hparser : st.parser = feedLoop (start x)) (hparser' : st'.parser = feedLoop (start x'))
    (hidle : st.chunkedGenerator = none) (hnone : st.pendingData = []) :
    Together a a' rest rest' (s.parse u data st c) (s.parse u data' st' c') := by
  have hfeed := hreading.feed hrecased hnames hdata hwaits
  rw [← hparser, ← hparser'] at hfeed
  rcases hfeed with ⟨hnext, hfeed, hfeed'⟩ | ⟨herror, halike⟩
  · obtain ⟨halike, hend⟩ := hnext.alike hrecased hnames
    rw [← hfeed, ← hfeed'] at halike
    rw [← hfeed] at hend
    by_cases hcomplete : (st.parser.feed data).state = .complete
    · have hcomplete' := halike.state ▸ hcomplete
      obtain ⟨r, hr, hrequest⟩ := HttpRequestParser.feedLoop_complete (hfeed ▸ hcomplete)
      obtain ⟨r', hr', hrequest'⟩ := HttpRequestParser.feedLoop_complete (hfeed' ▸ hcomplete')
      have hfront : r.wire <+: a := hr.trans (hnext.split ▸ List.prefix_append _ _)
      have hfront' : r'.wire <+: a' := hr'.trans (hnext.split' ▸ List.prefix_append _ _)
      obtain rfl := hend hcomplete
      rw [parse_complete hcomplete, parse_complete hcomplete']
      refine together_serve hs hfolded halike.request.folded ?_
      dsimp only
      rw [hfeed, hfeed', hrequest, hrequest', WireRequest.get_connection hnames hfront,
        WireRequest.get_connection hnames' hfront']
      exact hdecision r r' (hnext.limit.fits hr) hfront hfront'
    by_cases herror : (st.parser.feed data).state = .error
    · rw [parse_error herror, parse_error (halike.state ▸ herror)]
      exact together_badRequest hfolded herror (halike.state ▸ herror)
    · rw [parse_waits hcomplete herror,
        parse_waits (halike.state ▸ hcomplete) (halike.state ▸ herror)]
      exact ⟨hfolded, .reads hnext (hfeed ▸ ⟨hcomplete, herror⟩) hfeed hfeed' hidle hnone⟩
  · rw [parse_error herror, parse_error (halike.state ▸ herror)]
    exact together_badRequest hfolded herror (halike.state ▸ herror)

/-- **Two connections stay together** when they receive as much. -/
theorem together_onReceive (hs : s.CaseBlind) (hrecased : Recased a a') (hnames : DistinctNames a)
    (hnames' : DistinctNames a') (hdecision : SameDecision a a')
    (hdata : data.length = data'.length) (hfolded : folded (st, c) = folded (st', c'))
    (h : Coupled a a' (data ++ rest) (data' ++ rest') (some st) (some st')) :
    Together a a' rest rest' (s.onReceive u data st c) (s.onReceive u data' st' c') := by
  cases h with
  | reads hreading hwaits hparser hparser' hidle hnone =>
    have hst : st.folded = st'.folded := congrArg Prod.fst hfolded
    have hidle' : st'.chunkedGenerator = none :=
      (congrArg ConnectionState.chunkedGenerator hst :).symm.trans hidle
    have hnone' : st'.pendingData = [] :=
      (congrArg ConnectionState.pendingData hst :).symm.trans hnone
    rw [onReceive_idle hidle hnone, onReceive_idle hidle' hnone']
    exact together_reads hs hrecased hnames hnames' hdecision hdata hfolded hreading hwaits hparser
      hparser' hidle hnone
  | failed hstate hstate' =>
    refine onReceive_cases hfolded fun p p' hp hparser hparser' => ?_
    have hfeed {p : HttpRequestParser} (hp : p.state = .error) (data : Bytes) :
        p.feed data = p := by
      rw [HttpRequestParser.feed, if_pos (Or.inr hp)]
    rw [← hparser] at hstate
    rw [← hparser'] at hstate'
    refine ⟨⟨hp, .failed hstate hstate'⟩, ?_⟩
    have herror := (congrArg (·.state) (hfeed hstate data)).trans hstate
    have herror' := (congrArg (·.state) (hfeed hstate' data')).trans hstate'
    rw [parse_error herror, parse_error herror']
    exact together_badRequest hp herror herror'
  | served hrest hparser =>
    obtain ⟨rfl, rfl⟩ := List.append_inj hrest hdata
    refine onReceive_cases hfolded fun p p' hp hsame hsame' => ?_
    have hboth : p.1.parser = p'.1.parser := hsame.trans (hparser.trans hsame'.symm)
    refine ⟨⟨hp, .served rfl hboth⟩, ?_⟩
    by_cases hcomplete : (p.1.parser.feed data).state = .complete
    · rw [parse_complete hcomplete, parse_complete (hboth ▸ hcomplete)]
      refine together_serve hs hp ?_ ?_ <;> dsimp only <;> rw [hboth]
    by_cases herror : (p.1.parser.feed data).state = .error
    · rw [parse_error herror, parse_error (hboth ▸ herror)]
      exact together_badRequest hp herror (hboth ▸ herror)
    · rw [parse_waits hcomplete herror, parse_waits (hboth ▸ hcomplete) (hboth ▸ herror)]
      exact ⟨hp, .served rfl (congrArg (HttpRequestParser.feed data) hboth)⟩

theorem folded_state {p p' : ConnectionState × HttpConnection} (h : folded p = folded p') :
    HttpConnection.folded { p.2 with state := some p.1 } =
      HttpConnection.folded { p'.2 with state := some p'.1 } := by
  have hst : p.1.folded = p'.1.folded := congrArg Prod.fst h
  have hlog : p.2.log.map HttpEvent.folded = p'.2.log.map HttpEvent.folded :=
    (congrArg (fun p => HttpConnection.log p.2) h :)
  rw [HttpConnection.folded, HttpConnection.folded, hlog, Option.map_some, Option.map_some, hst]

theorem Coupled.polled {st₁ st₁' : ConnectionState}
    (h : Coupled a a' rest rest' (some st) (some st')) (hparser : st₁.parser = st.parser)
    (hparser' : st₁'.parser = st'.parser)
    (hidle : st.chunkedGenerator = none → st.pendingData = [] → st₁ = st) :
    Coupled a a' rest rest' (some st₁) (some st₁') := by
  cases h with
  | reads hreading hwaits hp hp' hnone hpending =>
    rw [hidle hnone hpending]
    exact .reads hreading hwaits hp (hparser'.trans hp') hnone hpending
  | failed hstate hstate' => exact .failed (hparser ▸ hstate) (hparser' ▸ hstate')
  | served hrest hp => exact .served hrest (hparser.trans (hp.trans hparser'.symm))

/-- **A call leaves two connections together.** -/
theorem coupled_step (hs : s.CaseBlind) (hrecased : Recased a a') (hnames : DistinctNames a)
    (hnames' : DistinctNames a') (hdecision : SameDecision a a') {x x' : Input}
    (hx : x.SameShape x') (hfolded : c.folded = c'.folded)
    (h : Coupled a a' (x.data ++ rest) (x'.data ++ rest') c.state c'.state) :
    (s.step u c x).folded = (s.step u c' x').folded ∧
      Coupled a a' rest rest' (s.step u c x).state (s.step u c' x').state := by
  obtain ⟨state, received, log⟩ := c
  obtain ⟨state', received', log'⟩ := c'
  have hlog : log.map HttpEvent.folded = log'.map HttpEvent.folded :=
    (congrArg HttpConnection.log hfolded :)
  have hstate : state.map ConnectionState.folded = state'.map ConnectionState.folded :=
    (congrArg HttpConnection.state hfolded :)
  cases hx with
  | close =>
    refine ⟨?_, .closed⟩
    rw [step, step, HttpConnection.folded_emit, HttpConnection.folded_emit, HttpConnection.folded,
      HttpConnection.folded, hlog]
  | poll =>
    rw [step, step]
    cases state with
    | none =>
      cases h
      exact ⟨hfolded, .closed⟩
    | some st =>
      cases state' with
      | none => cases h
      | some st' =>
        have hpolled := folded_poll (u := u) st ⟨some st, received, log⟩
        rw [hfolded, show st.folded = st'.folded from Option.some.inj hstate,
          folded_poll] at hpolled
        refine ⟨folded_state hpolled.symm, h.polled (quiet_poll ..).2 (quiet_poll ..).2 ?_⟩
        intro hidle hnone
        rw [poll, hidle, if_neg (by simp), if_pos hnone]
  | @receive data data' hdata =>
    rw [step, step]
    cases state with
    | none =>
      cases h
      refine ⟨?_, .closed⟩
      rw [HttpConnection.folded, HttpConnection.folded, hlog]
    | some st =>
      cases state' with
      | none => cases h
      | some st' =>
        have hpair : folded (st, ⟨some st, received ++ data, log⟩) =
            folded (st', ⟨some st', received' ++ data', log'⟩) :=
          Prod.ext (Option.some.inj hstate) hfolded
        have htogether := together_onReceive (s := s) (u := u) hs hrecased hnames hnames'
          hdecision hdata hpair h
        exact ⟨folded_state htogether.folded, htogether.coupled⟩

/-- **Two connections are the same** but for the case of header names, as far as the decision
is the same. -/
theorem folded_run (hs : s.CaseBlind) (hrecased : Recased a a') (hnames : DistinctNames a)
    (hnames' : DistinctNames a') (hdecision : SameDecision a a') {xs xs' : List Input}
    (hxs : List.Forall₂ Input.SameShape xs xs') (hdata : bytes xs <+: a)
    (hdata' : bytes xs' <+: a') :
    (GuardedRun.run (s.step u) {} xs).folded = (GuardedRun.run (s.step u) {} xs').folded := by
  obtain ⟨rest, hrest⟩ := hdata
  obtain ⟨rest', hrest'⟩ := hdata'
  have hrun {c c' : HttpConnection} (hfolded : c.folded = c'.folded)
      (h : Coupled a a' (bytes xs ++ rest) (bytes xs' ++ rest') c.state c'.state) :
      (GuardedRun.run (s.step u) c xs).folded = (GuardedRun.run (s.step u) c' xs').folded := by
    clear hrest hrest'
    induction hxs generalizing c c' with
    | nil => exact hfolded
    | @cons x x' xs xs' hx hxs ih =>
      rw [bytes, bytes, List.flatMap_cons, List.flatMap_cons, List.append_assoc,
        List.append_assoc] at h
      obtain ⟨hnext, hcoupled⟩ :=
        coupled_step (u := u) hs hrecased hnames hnames' hdecision hx hfolded h
      exact ih hnext hcoupled
  refine hrun rfl ?_
  rw [hrest, hrest']
  have hstart : {} = feedLoop (start []) := (HttpRequestParser.feedLoop_short rfl).symm
  have hfresh : ({} : HttpRequestParser).state ≠ .complete ∧
      ({} : HttpRequestParser).state ≠ .error := by decide
  exact .reads (.start a a') (hstart ▸ hfresh) hstart hstart rfl rfl

/-! ## A request in single bytes -/

def byBytes (y : Bytes) : List Input := y.map fun b => .receive [b]

theorem bytes_byBytes (y : Bytes) : bytes (byBytes y) = y := by
  induction y with
  | nil => rfl
  | cons b y ih => exact congrArg (List.cons b) ih

theorem sameShape_byBytes {y y' : Bytes} (h : y.length = y'.length) :
    List.Forall₂ Input.SameShape (byBytes y) (byBytes y') := by
  induction y generalizing y' with
  | nil =>
    rw [List.eq_nil_of_length_eq_zero h.symm]
    exact .nil
  | cons b y ih =>
    cases y' with
    | nil => cases h
    | cons b' y' => exact .cons (.receive rfl) (ih (Nat.succ.inj h))

/-- The parser waits for another byte, and has room for it. -/
structure Ready (x : Bytes) : Prop where
  incomplete : (feedLoop (start x)).state ≠ .complete
  well : (feedLoop (start x)).state ≠ .error
  room : (feedLoop (start x)).buffer.length < HttpParser.maxBufferSize

theorem Ready.feed {x : Bytes} (h : Ready x) (b : UInt8) :
    (feedLoop (start x)).feed [b] = feedLoop (start (x ++ [b])) :=
  HttpRequestParser.feed_partial ⟨h.incomplete, h.well⟩ h.room

theorem step_waiting (p : HttpRequestParser) (received data : Bytes) (log : List HttpEvent) :
    s.step u { state := some { parser := p }, received, log } (.receive data) =
      let next := s.parse u data { parser := p }
        { state := some { parser := p }, received := received ++ data, log }
      { next.2 with state := some next.1 } := by
  rw [step]
  dsimp only
  have hidle : ({ parser := p } : ConnectionState).chunkedGenerator = none := rfl
  rw [onReceive_idle hidle rfl]

/-- As long as the parser waits, the server does nothing. -/
theorem run_ready {x : Bytes} (h : ∀ y, y <+: x → Ready y) :
    GuardedRun.run (s.step u) {} (byBytes x) =
      { state := some { parser := feedLoop (start x) }, received := x } := by
  induction x using List.reverseRecOn with
  | nil =>
    rw [HttpRequestParser.feedLoop_short rfl]
    rfl
  | append_singleton x b ih =>
    have hx := h x (List.prefix_append _ _)
    have hnext := h (x ++ [b]) List.prefix_rfl
    rw [byBytes, List.map_append, GuardedRun.run_append, ← byBytes,
      ih fun y hy => h y (hy.trans (List.prefix_append _ _))]
    rw [List.map_singleton, GuardedRun.run_cons, GuardedRun.run_nil, step_waiting]
    dsimp only
    rw [parse_waits] <;> dsimp only <;> rw [hx.feed b]
    · exact hnext.incomplete
    · exact hnext.well

theorem keepAlive_flushPending (st : ConnectionState) (c : HttpConnection) :
    (flushPending u st c).2.1.keepAlive = st.keepAlive := by
  have hpending : (sendPending u st c).2.1.keepAlive = st.keepAlive := by
    rw [sendPending]
    dsimp only
    split <;> rfl
  rw [flushPending]
  generalize sendPending u st c = p at hpending ⊢
  obtain ⟨done, st', c'⟩ := p
  cases done <;> exact hpending

theorem keepAlive_serveAs (keep : Bool) (request : HttpRequest) (st : ConnectionState)
    (c : HttpConnection) : (({} : HttpServer).serveAs u keep request st c).1.keepAlive = keep := by
  have hchunked (n : Nat) (st : ConnectionState) (c : HttpConnection) :
      (if request.method = .get then ({} : HttpServer).dispatchChunked u n request st c
        else none) = none := ite_self none
  rw [serveAs, hchunked]
  exact keepAlive_flushPending _ _

/-- **The decision is seen on the connection.** -/
theorem run_complete {x : Bytes} {b : UInt8} (h : ∀ y, y <+: x → Ready y)
    (hcomplete : (feedLoop (start (x ++ [b]))).state = .complete) :
    ((GuardedRun.run (({} : HttpServer).step u) {} (byBytes (x ++ [b]))).state.map
        (·.keepAlive)) =
      some (decide ((feedLoop (start (x ++ [b]))).request.headers.get (ascii "Connection") ≠
        ascii "close")) := by
  have hfeed := (h x List.prefix_rfl).feed b
  rw [byBytes, List.map_append, GuardedRun.run_append, ← byBytes, run_ready h, List.map_singleton,
    GuardedRun.run_cons, GuardedRun.run_nil, step_waiting]
  dsimp only
  rw [parse_complete (by dsimp only; rw [hfeed, hcomplete]), serve_eq]
  dsimp only
  rw [Option.map_some, keepAlive_serveAs, hfeed]

/-! ## The same treatment -/

/-- **The parser frames the two in the same way, and the server treats the connections in the
same way**: in whatever pieces they come, whatever else is called in between, the server
dispatches and sends the same, and keeps both connections or closes both. -/
structure SameTreatment (a a' : Bytes) : Prop where
  framing : ∀ {pieces pieces' : List Bytes},
    List.Forall₂ (fun data data' => data.length = data'.length) pieces pieces' →
      pieces.flatten <+: a → pieces'.flatten <+: a' →
        (HttpRequestParser.received pieces).Alike (HttpRequestParser.received pieces')
  connection : ∀ {s : HttpServer}, s.CaseBlind → ∀ (u : Surroundings) {xs xs' : List Input},
    List.Forall₂ Input.SameShape xs xs' → bytes xs <+: a → bytes xs' <+: a' →
      (GuardedRun.run (s.step u) {} xs).folded = (GuardedRun.run (s.step u) {} xs').folded

theorem ready_of_alike {x x' : Bytes} (h : Ready x)
    (halike : (feedLoop (start x)).Alike (feedLoop (start x'))) : Ready x' :=
  ⟨halike.state ▸ h.incomplete, halike.state ▸ h.well, halike.buffer ▸ h.room⟩

/-- In the middle of a request that fits. -/
theorem ready_of_fits {r : WireRequest} (h : r.Fits) {x : Bytes} (hx : x <+: r.wire)
    (hshort : x.length < r.wire.length) : Ready x := by
  obtain ⟨b, hb⟩ := hx
  have hne : b ≠ [] := by
    rintro rfl
    rw [← hb, List.append_nil] at hshort
    exact Nat.lt_irrefl _ hshort
  obtain ⟨hincomplete, hwell⟩ := HttpRequestParser.feedLoop_partial hb hne
  exact ⟨hincomplete, hwell, h.buffer_lt ⟨b, hb⟩ hshort⟩

theorem SameTreatment.keepAlive (h : SameTreatment a a') {x x' : Bytes} (hx : x <+: a)
    (hx' : x' <+: a') (hlength : x.length = x'.length) :
    ((GuardedRun.run (({} : HttpServer).step u) {} (byBytes x)).state.map (·.keepAlive)) =
      ((GuardedRun.run (({} : HttpServer).step u) {} (byBytes x')).state.map (·.keepAlive)) := by
  have hconnection := h.connection (s := {}) ⟨nofun, nofun, nofun⟩ u
    (sameShape_byBytes hlength) (by rwa [bytes_byBytes]) (by rwa [bytes_byBytes])
  have hkeep (c : HttpConnection) :
      c.folded.state.map (·.keepAlive) = c.state.map (·.keepAlive) := Option.map_map ..
  rw [← hkeep, hconnection, hkeep]

theorem SameTreatment.sameDecision (hrecased : Recased a a') (hnames : DistinctNames a)
    (hnames' : DistinctNames a') (h : SameTreatment a a') : SameDecision a a' := by
  intro r r' hfits hr hr'
  have halike {y y' : Bytes} (hy : y <+: a) (hy' : y' <+: a') (hlength : y.length = y'.length) :
      (feedLoop (start y)).Alike (feedLoop (start y')) := by
    obtain ⟨rest, rfl⟩ := hy
    obtain ⟨rest', rfl⟩ := hy'
    exact (HttpRequestParser.feedLoop_alike hrecased hnames hlength).1
  -- the bytes of the one request, and as many of the other string
  obtain ⟨w, b, hw⟩ := (List.eq_nil_or_concat r.wire).resolve_left r.wire_ne_nil
  rw [List.concat_eq_append] at hw
  obtain ⟨w', b', hfront', hlength⟩ :
      ∃ w' b', w' ++ [b'] <+: a' ∧ w.length = w'.length := by
    have hle := hrecased.length ▸ hr.length_le
    have htake : (a'.take r.wire.length).length = w.length + 1 := by
      rw [List.length_take, Nat.min_eq_left hle, hw, List.length_append, List.length_singleton]
    rcases List.eq_nil_or_concat (a'.take r.wire.length) with hnil | ⟨w', b', hw'⟩
    · rw [hnil] at htake
      cases htake
    · rw [List.concat_eq_append] at hw'
      rw [hw', List.length_append, List.length_singleton] at htake
      exact ⟨w', b', hw' ▸ List.take_prefix _ _, (Nat.succ.inj htake).symm⟩
  have hboth : (w ++ [b]).length = (w' ++ [b']).length := by
    rw [List.length_append, List.length_append, hlength]
    rfl
  have hfront : w ++ [b] <+: a := hw ▸ hr
  have hready {y : Bytes} (hy : y <+: w) : Ready y := by
    refine ready_of_fits hfits (hw ▸ hy.trans (List.prefix_append _ _)) ?_
    rw [hw, List.length_append]
    exact Nat.lt_succ_of_le hy.length_le
  have hready' {y : Bytes} (hy : y <+: w') : Ready y := by
    have hshort : y.length ≤ w.length := hlength ▸ hy.length_le
    refine ready_of_alike (hready (List.take_prefix y.length w)) (halike ?_ ?_ ?_)
    · exact ((List.take_prefix _ w).trans (List.prefix_append _ _)).trans hfront
    · exact (hy.trans (List.prefix_append _ _)).trans hfront'
    · rw [List.length_take, Nat.min_eq_left hshort]
  have hcomplete : (feedLoop (start (w ++ [b]))).state = .complete := by
    rw [← hw, HttpRequestParser.feedLoop_wire]
  have hcomplete' := (halike hfront hfront' hboth).state ▸ hcomplete
  have hkeep := h.keepAlive (u := { accept := fun _ => 0 }) hfront hfront' hboth
  rw [run_complete (fun y => hready) hcomplete, run_complete (fun y => hready') hcomplete',
    HttpRequestParser.feedLoop_front hcomplete hfront hr,
    HttpRequestParser.feedLoop_front hcomplete' hfront' hr'] at hkeep
  have hdecide := decide_eq_decide.mp (Option.some.inj hkeep)
  rw [← WireRequest.get_connection hnames hr, ← WireRequest.get_connection hnames' hr']
  exact not_iff_not.mp hdecide

/-- **Header names are case-insensitive exactly as far as the decision is the same**: the
spelling of a header matters to the server only where it decides whether to close. -/
theorem sameTreatment_iff (hrecased : Recased a a') (hnames : DistinctNames a)
    (hnames' : DistinctNames a') : SameTreatment a a' ↔ SameDecision a a' := by
  refine ⟨fun h => h.sameDecision hrecased hnames hnames', fun h => ⟨?_, ?_⟩⟩
  · rintro pieces pieces' hpieces ⟨rest, hrest⟩ ⟨rest', hrest'⟩
    exact HttpRequestParser.received_alike hrecased hnames hpieces hrest.symm hrest'.symm
  · intro s hs u xs xs' hxs hdata hdata'
    exact folded_run hs hrecased hnames hnames' h hxs hdata hdata'

/-! ## Two requests -/

/-- `POST / HTTP/1.1` with a body of two bytes. -/
def postTwo (fields : List HeaderField)
    (h : 2 = HttpParser.contentLengthOf (collect [] fields) 0) : WireRequest where
  method := ascii "POST"
  uri := ascii "/"
  version := ascii "HTTP/1.1"
  fields := fields
  body := ascii "hi"
  method_word := by decide
  uri_word := by decide
  one_line := by decide +kernel
  body_length := h

def lengthLine : HeaderField := ⟨ascii "Content-Length", ascii " 2", by decide, by decide +kernel⟩

def lengthLower : HeaderField := ⟨ascii "content-length", ascii " 2", by decide, by decide +kernel⟩

def closeLine : HeaderField := ⟨ascii "Connection", ascii " close", by decide, by decide +kernel⟩

def closeLower : HeaderField := ⟨ascii "connection", ascii " close", by decide, by decide +kernel⟩

def closing : WireRequest := postTwo [lengthLine, closeLine] (by decide +kernel)

def lengthRecased : WireRequest := postTwo [lengthLower, closeLine] (by decide +kernel)

def closeRecased : WireRequest := postTwo [lengthLine, closeLower] (by decide +kernel)

theorem recased_postTwo {fields fields' : List HeaderField}
    (h : 2 = HttpParser.contentLengthOf (collect [] fields) 0)
    (h' : 2 = HttpParser.contentLengthOf (collect [] fields') 0)
    (halike : List.Forall₂ HeaderField.Alike fields fields') :
    Recased (postTwo fields h).wire (postTwo fields' h').wire := by
  rw [WireRequest.wire, WireRequest.wire]
  exact .lines (postTwo fields h).one_line halike

theorem recased_length : Recased closing.wire lengthRecased.wire :=
  recased_postTwo _ _ (.cons ⟨by decide +kernel, rfl⟩ (.cons (.refl _) .nil))

theorem recased_close : Recased closing.wire closeRecased.wire :=
  recased_postTwo _ _ (.cons (.refl _) (.cons ⟨by decide +kernel, rfl⟩ .nil))

theorem distinct_wire {r : WireRequest} (h : (HeaderField.names r.fields).Nodup) :
    DistinctNames r.wire := by
  have hnames := WireRequest.distinctNames h []
  rwa [List.append_nil] at hnames

theorem sameTreatment_iff_length : SameTreatment closing.wire lengthRecased.wire := by
  have hnames : DistinctNames closing.wire := distinct_wire (by decide +kernel)
  have hnames' : DistinctNames lengthRecased.wire := distinct_wire (by decide +kernel)
  refine (sameTreatment_iff recased_length hnames hnames').mpr fun r r' _ hr hr' => ?_
  rw [WireRequest.closes_front hnames hr, WireRequest.closes_front hnames' hr']
  decide +kernel

/-- **`connection: close` does not close.** -/
theorem lower_kept :
    Recased closing.wire closeRecased.wire ∧ DistinctNames closing.wire ∧
      DistinctNames closeRecased.wire ∧ ¬ SameTreatment closing.wire closeRecased.wire := by
  have hnames : DistinctNames closing.wire := distinct_wire (by decide +kernel)
  have hnames' : DistinctNames closeRecased.wire := distinct_wire (by decide +kernel)
  refine ⟨recased_close, hnames, hnames', fun hsame => ?_⟩
  have hfits : closing.Fits := ⟨by decide +kernel, by decide +kernel, by decide +kernel⟩
  have hdecision := hsame.sameDecision recased_close hnames hnames' closing closeRecased hfits
    List.prefix_rfl List.prefix_rfl
  exact absurd hdecision (by decide +kernel)

end HttpServer
end NeuStack
