import Mathlib.Data.List.Induction
import NeuStack.MessageParser

/-! # What the response parser reports

`HttpResponseParser.feed` in any pieces.  The parser is complete only behind a full
response (`received_complete`), and in the middle of the headers or of the body it has
not seen one (`received_between`).
-/
namespace NeuStack

/-- **A full response stands at the front of some bytes**: a status line, the headers,
and a body of the length that they give. -/
def FullResponse (r : HttpResponse) (bytes : Bytes) : Prop :=
  ∃ (line status : Bytes) (fields : List HeaderField) (rest : Bytes),
    bytes = line ++ crlf ++ (HeaderField.lines fields ++ (crlf ++ (r.body ++ rest))) ∧
    HttpParser.cutLine line = none ∧
    HttpResponseParser.statusString line = some status ∧
    StringUtils.stoiSafe status 0 = r.status ∧ 100 ≤ r.status ∧ r.status ≤ 599 ∧
    r.headers = HeaderField.collect [] fields ∧
    r.body.length = HttpParser.contentLengthOf r.headers 0

theorem FullResponse.append {r : HttpResponse} {bytes : Bytes} (h : FullResponse r bytes)
    (behind : Bytes) : FullResponse r (bytes ++ behind) := by
  obtain ⟨line, status, fields, rest, rfl, hrest⟩ := h
  refine ⟨line, status, fields, rest ++ behind, ?_, hrest⟩
  simp only [List.append_assoc]

namespace HttpResponseParser
open HttpParser (cutLine parseHeaders)
variable {p q : HttpResponseParser}

/-! ## Resuming -/

/-- With `b` behind the input. -/
def more (b : Bytes) (p : HttpResponseParser) : HttpResponseParser :=
  { p with toHttpParser := p.toHttpParser.more b }

theorem parseStatusLine_more (h : p.parseStatusLine = some q) (b : Bytes) :
    (p.more b).parseStatusLine = some (q.more b) := by
  rw [parseStatusLine] at h ⊢
  cases hcut : cutLine p.buffer with
  | none =>
    rw [hcut] at h
    cases h
  | some cut =>
    obtain ⟨line, rest⟩ := cut
    rw [hcut] at h
    rw [show cutLine (p.more b).buffer = _ from HttpParser.cutLine_append hcut b]
    dsimp only at h ⊢
    cases hstatus : statusString line with
    | none =>
      rw [hstatus] at h
      cases h
      rfl
    | some status =>
      rw [hstatus] at h
      dsimp only at h ⊢
      split at h
      · rename_i hcode
        cases h
        rw [if_pos hcode]
        rfl
      · rename_i hcode
        cases h
        rw [if_neg hcode]
        rfl

/-- A status line that is not read is an error. -/
theorem parseStatusLine_read (h : p.parseStatusLine = some q) :
    q.state = .error ∨ ∃ line status rest, cutLine p.buffer = some (line, rest) ∧
      statusString line = some status ∧
      ¬ (StringUtils.stoiSafe status 0 < 100 ∨ 599 < StringUtils.stoiSafe status 0) ∧
      q = { p with
        buffer := rest, state := .headers
        response := { p.response with status := (StringUtils.stoiSafe status 0).toNat } } := by
  rw [parseStatusLine] at h
  split at h
  · cases h
  · rename_i line rest hcut
    dsimp only at h
    split at h
    · cases h
      exact Or.inl rfl
    · rename_i status hstatus
      split at h
      · cases h
        exact Or.inl rfl
      · rename_i hcode
        cases h
        exact Or.inr ⟨line, status, rest, hcut, hstatus, hcode, rfl⟩

theorem parseStatusLine_state (h : p.parseStatusLine = some q) :
    q.state = .headers ∨ q.state = .error := by
  rcases parseStatusLine_read h with hq | ⟨_, _, _, -, -, -, rfl⟩
  · exact Or.inr hq
  · exact Or.inl rfl

theorem checkChunked_more (b : Bytes) (p : HttpResponseParser) :
    (p.more b).checkChunked = (p.checkChunked.1, p.checkChunked.2.more b) := by
  rw [checkChunked, checkChunked]
  dsimp only
  by_cases hchunked : chunkedOf p.response.headers p.chunked = true ∧ p.state = .body
  · rw [if_pos hchunked]
    exact if_pos hchunked
  · rw [if_neg hchunked]
    exact if_neg hchunked

/-- The check stops with an error, or it changes nothing else. -/
theorem checkChunked_cases (p : HttpResponseParser) :
    p.checkChunked.1 = false ∧ p.checkChunked.2.state = .error ∨
      ∃ chunked, p.checkChunked = (true, { p with chunked }) := by
  rw [checkChunked]
  dsimp only
  by_cases hchunked : chunkedOf p.response.headers p.chunked = true ∧ p.state = .body
  · rw [if_pos hchunked]
    exact Or.inl ⟨rfl, rfl⟩
  · rw [if_neg hchunked]
    exact Or.inr ⟨_, rfl⟩

/-- The response parser as a message parser. -/
def message : MessageParser HttpResponseParser where
  base p := p.toHttpParser
  headers p := p.response.headers
  firstLine := parseStatusLine
  withHeaders headers q p := { p with toHttpParser := q, response := { p.response with headers } }
  check := checkChunked
  withBody body q p := { p with toHttpParser := q, response := { p.response with body } }
  more := more
  more_nil p := by
    show { p with toHttpParser := { p.toHttpParser with buffer := p.buffer ++ [] } } = p
    rw [List.append_nil]
  more_more a b p := by
    show { p with toHttpParser := { p.toHttpParser with buffer := p.buffer ++ a ++ b } } = _
    rw [List.append_assoc]
    rfl
  base_more _ _ := rfl
  headers_more _ _ := rfl
  firstLine_more b h := parseStatusLine_more h b
  firstLine_state h := parseStatusLine_state h
  base_withHeaders _ _ _ := rfl
  headers_withHeaders _ _ _ := rfl
  withHeaders_more _ _ _ _ := rfl
  withHeaders_twice _ _ _ _ _ := rfl
  check_more := checkChunked_more
  check_cases p := (checkChunked_cases p).imp_right fun ⟨_, h⟩ => by
    rw [h]
    exact ⟨rfl, rfl⟩
  base_withBody _ _ _ := rfl
  withBody_more _ _ _ _ := rfl

theorem round_headers {ended : Bool} {headers : HttpHeaders} {q : HttpParser}
    (h : p.state = .headers)
    (hparse : parseHeaders (p.buffer.length + 1) p.response.headers p.toHttpParser =
      (ended, headers, q)) :
    message.round p =
      if ended then (message.withHeaders headers q p).checkChunked
      else (false, message.withHeaders headers q p) :=
  message.round_headers h hparse

theorem round_body (h : p.state = .body) :
    message.round p = match p.parseBody with
      | none => (false, p)
      | some (body, q) => (true, message.withBody body q p) :=
  message.round_body h

theorem round_firstLine (h : p.state = .firstLine) :
    message.round p = match p.parseStatusLine with
      | none => (false, p)
      | some q => (true, q) := by
  rw [message.round_firstLine h, show message.firstLine p = p.parseStatusLine from rfl]
  cases p.parseStatusLine <;> rfl

theorem feedRound_eq (p : HttpResponseParser) : p.feedRound = message.round p := by
  cases hstate : p.state with
  | firstLine => rw [feedRound, hstate, round_firstLine hstate] <;> rfl
  | headers =>
    rcases hparse : parseHeaders (p.buffer.length + 1) p.response.headers p.toHttpParser with
      ⟨ended, headers, q⟩
    rw [feedRound, hstate, round_headers hstate hparse]
    simp only [hparse]
    rfl
  | body => rw [feedRound, hstate, round_body hstate]; rfl
  | complete => rw [feedRound, hstate, message.round_stopped (Or.inl hstate)]
  | error => rw [feedRound, hstate, message.round_stopped (Or.inr hstate)]

theorem feedLoop_eq (p : HttpResponseParser) : p.feedLoop = Rounds.run message.round 4 p := by
  rw [feedLoop, funext feedRound_eq]

/-! ## What is complete -/

/-- The body that the content length says. -/
theorem run_body (h : p.state = .body) (n : Nat) :
    Rounds.run message.round (n + 1) p =
      if p.contentLength ≤ p.buffer.length then
        { p with
          state := .complete, buffer := p.buffer.drop p.contentLength
          response := { p.response with body := p.buffer.take p.contentLength } }
      else p := by
  have hround := round_body h
  rw [HttpParser.parseBody] at hround
  split
  · rename_i hle
    rw [if_pos hle] at hround
    rw [Rounds.run_of_goes hround, message.run_stopped (Or.inl rfl)]
    rfl
  · rename_i hle
    rw [if_neg hle] at hround
    rw [Rounds.run_of_waits hround]

/-- Behind the headers, with the body and more in the buffer. -/
theorem run_ended (h : p.state = .body ∨ p.state = .complete) (hbody : p.response.body = [])
    (hlength : p.state = .body ↔ 0 < p.contentLength) (n : Nat) :
    ((Rounds.run message.round (n + 1) p).state = .complete ↔ p.contentLength ≤ p.buffer.length) ∧
      (p.contentLength ≤ p.buffer.length → (Rounds.run message.round (n + 1) p).response =
        { p.response with body := p.buffer.take p.contentLength }) := by
  rcases h with h | h
  · rw [run_body h]
    split
    · rename_i hle
      exact ⟨⟨fun _ => hle, fun _ => rfl⟩, fun _ => rfl⟩
    · rename_i hle
      rw [h]
      exact ⟨⟨nofun, fun hle' => absurd hle' hle⟩, fun hle' => absurd hle' hle⟩
  · have hzero : p.contentLength = 0 := by
      rw [h] at hlength
      exact Nat.eq_zero_of_not_pos fun hpos => nomatch hlength.mpr hpos
    rw [message.run_stopped (Or.inl h), hzero, List.take_zero, ← hbody]
    exact ⟨⟨fun _ => Nat.zero_le _, fun _ => h⟩, fun _ => rfl⟩

/-- What `run_ended` says of a parser behind the headers `headers`. -/
theorem run_endHeaders (headers : HttpHeaders) (rest : Bytes) (h : p.state = .headers)
    (hbody : p.response.body = []) (n : Nat)
    (hparse : parseHeaders (p.buffer.length + 1) p.response.headers p.toHttpParser =
      (true, headers, HttpParser.endHeaders headers { p.toHttpParser with buffer := rest })) :
    (Rounds.run message.round (n + 2) p).state = .error ∨
      (Rounds.run message.round (n + 2) p).state ≠ .complete ∧
        rest.length < HttpParser.contentLengthOf headers p.contentLength ∨
      (Rounds.run message.round (n + 2) p).state = .complete ∧
        HttpParser.contentLengthOf headers p.contentLength ≤ rest.length ∧
        (Rounds.run message.round (n + 2) p).response = { p.response with
          headers, body := rest.take (HttpParser.contentLengthOf headers p.contentLength) } := by
  have hround := round_headers h hparse
  rw [if_pos rfl] at hround
  generalize hq : message.withHeaders headers _ p = q at hround
  rcases checkChunked_cases q with ⟨hgoes, herror⟩ | ⟨chunked, hgoes⟩
  · left
    rcases hcheck : q.checkChunked with ⟨goes, q'⟩
    rw [hcheck] at hround hgoes herror
    dsimp only at hgoes
    rw [hgoes] at hround
    rw [Rounds.run_of_waits hround]
    exact herror
  · right
    rw [hgoes] at hround
    rw [Rounds.run_of_goes hround]
    have hended := run_ended (p := { q with chunked })
      (by subst hq; exact HttpParser.endHeaders_state ..) (by subst hq; exact hbody)
      (by
        subst hq
        show (HttpParser.endHeaders headers _).state = _ ↔ 0 < HttpParser.contentLengthOf headers _
        rw [HttpParser.endHeaders]
        dsimp only
        split
        · rename_i hpos
          exact ⟨fun _ => hpos, fun _ => rfl⟩
        · rename_i hpos
          exact ⟨fun hbody => (by cases hbody), fun hpos' => absurd hpos' hpos⟩) n
    subst hq
    by_cases hle : HttpParser.contentLengthOf headers p.contentLength ≤ rest.length
    · exact Or.inr ⟨hended.1.mpr hle, hle, hended.2 hle⟩
    · exact Or.inl ⟨mt hended.1.mp hle, Nat.lt_of_not_le hle⟩

/-- A parser that gets all of its input at once. -/
def start (bytes : Bytes) : HttpResponseParser := { buffer := bytes }

/-- The parser behind a status line. -/
def behindStatus (status : Nat) (rest : Bytes) : HttpResponseParser :=
  { state := .headers, buffer := rest, response := { status } }

theorem headers_complete {status : Nat} {rest : Bytes}
    (h : (Rounds.run message.round 3 (behindStatus status rest)).state = .complete) :
    ∃ (fields : List HeaderField) (body behind : Bytes),
      rest = HeaderField.lines fields ++ (crlf ++ (body ++ behind)) ∧
      body.length = HttpParser.contentLengthOf (HeaderField.collect [] fields) 0 ∧
      (Rounds.run message.round 3 (behindStatus status rest)).response =
        { status, headers := HeaderField.collect [] fields, body } := by
  generalize hp : behindStatus status rest = p at h ⊢
  have hstate : p.state = .headers := by rw [← hp]; rfl
  have hheaders : p.response.headers = [] := by rw [← hp]; rfl
  have hlength : p.contentLength = 0 := by rw [← hp]; rfl
  rcases hparse : parseHeaders (p.buffer.length + 1) p.response.headers p.toHttpParser with
    ⟨ended, headers, q⟩
  have hread : HttpParser.HeadersRead p.response.headers p.toHttpParser _ :=
    HttpParser.parseHeaders_read (Nat.lt_succ_self p.buffer.length)
  rw [show parseHeaders _ p.response.headers p.toHttpParser = _ from hparse] at hread
  cases hread with
  | waits fields behind hsplit hnone =>
    rw [Rounds.run_of_waits ((round_headers hstate hparse).trans (if_neg nofun))] at h
    exact nomatch hstate.symm.trans h
  | ends fields behind hsplit =>
    rcases run_endHeaders (HeaderField.collect p.response.headers fields) behind hstate
      (by rw [← hp]; rfl) 1 hparse with herror | ⟨hnot, -⟩ | ⟨-, hle, hresponse⟩
    · exact nomatch herror.symm.trans h
    · exact absurd h hnot
    · rw [hheaders, hlength] at hle hresponse
      refine ⟨fields, _,
        behind.drop (HttpParser.contentLengthOf (HeaderField.collect [] fields) 0), ?_,
        List.length_take_of_le hle, ?_⟩
      · rw [List.take_append_drop, ← hsplit, ← hp]
        rfl
      · rw [hresponse, ← hp]
        rfl
  | fails fields behind =>
    have hround := (round_headers hstate hparse).trans (if_pos rfl)
    rcases checkChunked_cases
      (message.withHeaders (HeaderField.collect p.response.headers fields) _ p) with
      ⟨hgoes, herror⟩ | ⟨chunked, hgoes⟩
    · rw [← hround] at hgoes herror
      rcases hnext : message.round p with ⟨goes, q'⟩
      rw [hnext] at hgoes herror
      cases hgoes
      rw [Rounds.run_of_waits hnext] at h
      exact nomatch herror.symm.trans h
    · rw [Rounds.run_of_goes (hround.trans hgoes), message.run_stopped (Or.inr rfl)] at h
      cases h

theorem headers_full {status : Nat} {rest body behind : Bytes} {fields : List HeaderField}
    (hsplit : rest = HeaderField.lines fields ++ (crlf ++ (body ++ behind)))
    (hlength : body.length = HttpParser.contentLengthOf (HeaderField.collect [] fields) 0) :
    (Rounds.run message.round 3 (behindStatus status rest)).state = .error ∨
      (Rounds.run message.round 3 (behindStatus status rest)).state = .complete ∧
        (Rounds.run message.round 3 (behindStatus status rest)).response =
          { status, headers := HeaderField.collect [] fields, body } := by
  have hparse : parseHeaders (rest.length + 1) [] (behindStatus status rest).toHttpParser = _ :=
    HttpParser.parseHeaders_lines fields hsplit (Nat.lt_succ_self _)
  rcases run_endHeaders (p := behindStatus status rest) (HeaderField.collect [] fields)
    (body ++ behind) rfl rfl 1 hparse with herror | ⟨-, hlt⟩ | ⟨hcomplete, -, hresponse⟩
  · exact Or.inl herror
  · rw [show (behindStatus status rest).contentLength = 0 from rfl, ← hlength,
      List.length_append] at hlt
    omega
  · refine Or.inr ⟨hcomplete, ?_⟩
    rw [hresponse, show (behindStatus status rest).contentLength = 0 from rfl, ← hlength,
      List.take_left]
    rfl

/-- **A parser is complete only behind a full response.** -/
theorem feedLoop_complete {bytes : Bytes} (h : (feedLoop (start bytes)).state = .complete) :
    FullResponse (feedLoop (start bytes)).response bytes := by
  rw [feedLoop_eq] at h ⊢
  have hround := round_firstLine (p := start bytes) rfl
  cases hline : (start bytes).parseStatusLine with
  | none =>
    rw [hline] at hround
    rw [Rounds.run_of_waits hround] at h
    cases h
  | some p =>
    rw [hline] at hround
    rw [Rounds.run_of_goes hround] at h ⊢
    rcases parseStatusLine_read hline with herror | ⟨line, status, rest, hcut, hstatus, hcode, hp⟩
    · rw [message.run_stopped (Or.inr herror), herror] at h
      cases h
    change p = behindStatus (StringUtils.stoiSafe status 0).toNat rest at hp
    subst hp
    obtain ⟨fields, body, behind, hsplit, hlength, hresponse⟩ := headers_complete h
    rw [hresponse]
    refine ⟨line, status, fields, behind, ?_, Delimited.cutPair_before hcut, hstatus, ?_, ?_, ?_,
      rfl, hlength⟩
    · rw [← hsplit]
      exact HttpParser.cutLine_eq_some hcut
    · dsimp only
      omega
    · dsimp only
      omega
    · dsimp only
      omega

/-- **Behind a full response a parser is complete, or the transfer is chunked.** -/
theorem feedLoop_full {r : HttpResponse} {bytes : Bytes} (h : FullResponse r bytes) :
    (feedLoop (start bytes)).state = .error ∨
      (feedLoop (start bytes)).state = .complete ∧ (feedLoop (start bytes)).response = r := by
  obtain ⟨line, status, fields, behind, rfl, hline, hstatus, hcode, hle, hge, hheaders, hlength⟩ := h
  obtain ⟨code, headers, body⟩ := r
  dsimp only at hcode hle hge hheaders hlength
  subst hheaders
  generalize hrest : HeaderField.lines fields ++ (crlf ++ (body ++ behind)) = rest
  have hcut := HttpParser.cutLine_line hline rest
  have hround := round_firstLine (p := start (line ++ crlf ++ rest)) rfl
  have hread : (start (line ++ crlf ++ rest)).parseStatusLine = some (behindStatus code rest) := by
    rw [parseStatusLine, show cutLine (start (line ++ crlf ++ rest)).buffer = _ from hcut]
    dsimp only
    rw [hstatus]
    dsimp only
    rw [if_neg (by omega), hcode]
    rfl
  rw [hread] at hround
  rw [feedLoop_eq, Rounds.run_of_goes hround]
  exact headers_full hrest.symm hlength

/-! ## Pieces -/

/-- A new parser after `feed` of some pieces. -/
def received (pieces : List Bytes) : HttpResponseParser :=
  pieces.foldl (fun p data => p.feed data) {}

theorem received_snoc (pieces : List Bytes) (data : Bytes) :
    received (pieces ++ [data]) = (received pieces).feed data :=
  List.foldl_concat ..

/-- **Fed in pieces, a parser is where it would be if it had got at once what it has
used**: all of the bytes, unless the message ended before them. -/
theorem received_cases (pieces : List Bytes) :
    (received pieces).state = .error ∨
      ∃ front behind, pieces.flatten = front ++ behind ∧
        received pieces = feedLoop (start front) ∧
        ((received pieces).state = .complete ∨ behind = []) := by
  induction pieces using List.reverseRecOn with
  | nil => exact Or.inr ⟨[], [], rfl, rfl, Or.inr rfl⟩
  | append_singleton pieces data ih =>
    rw [received_snoc, feed]
    rcases ih with herror | ⟨front, behind, hsplit, hfront, hbehind⟩
    · rw [if_pos (Or.inr herror)]
      exact Or.inl herror
    have hflatten : (pieces ++ [data]).flatten = front ++ (behind ++ data) := by
      rw [List.flatten_append, hsplit, List.append_assoc, List.flatten_singleton]
    by_cases hstopped : (received pieces).state = .complete ∨ (received pieces).state = .error
    · rw [if_pos hstopped]
      rcases hstopped with hcomplete | herror
      · exact Or.inr ⟨front, behind ++ data, hflatten, hfront, Or.inl hcomplete⟩
      · exact Or.inl herror
    · rw [if_neg hstopped]
      obtain rfl := hbehind.resolve_left (mt Or.inl hstopped)
      dsimp only
      split
      · exact Or.inl rfl
      · refine Or.inr ⟨front ++ data, [], by rw [hflatten, List.append_assoc, List.append_nil,
          List.nil_append], ?_, Or.inr rfl⟩
        rw [hfront, feedLoop_eq, feedLoop_eq, feedLoop_eq]
        exact (message.resumable.run_more (p := start front) (show 3 < 4 by decide) data).symm

/-- **What is complete has been received in full.** -/
theorem received_complete {pieces : List Bytes} (h : (received pieces).state = .complete) :
    FullResponse (received pieces).response pieces.flatten := by
  rcases received_cases pieces with herror | ⟨front, behind, hsplit, hfront, -⟩
  · exact nomatch herror.symm.trans h
  · rw [hfront] at h ⊢
    rw [hsplit]
    exact (feedLoop_complete h).append behind

/-- **In the middle of the headers or of the body nothing has been received in full.** -/
theorem received_between {pieces : List Bytes}
    (h : (received pieces).state = .headers ∨ (received pieces).state = .body)
    (r : HttpResponse) : ¬ FullResponse r pieces.flatten := by
  intro hfull
  rcases received_cases pieces with herror | ⟨front, behind, hsplit, hfront, hcomplete | rfl⟩
  · rcases h with h | h <;> exact nomatch herror.symm.trans h
  · rcases h with h | h <;> exact nomatch hcomplete.symm.trans h
  · rw [hsplit, List.append_nil] at hfull
    rw [hfront] at h
    rcases feedLoop_full hfull with hend | ⟨hend, -⟩ <;>
      rcases h with h | h <;> exact nomatch hend.symm.trans h

end HttpResponseParser
end NeuStack
