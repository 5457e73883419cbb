import Mathlib.Data.List.TakeWhile
import NeuStack.Decimal
import NeuStack.HttpHeaderLines
import NeuStack.HttpSegmentation

/-! # Responses come back

A response that is built by `set_header`, `add_header` and `set_body` has headers that can be
read back, among them one `Content-Length`, of the body, once there is a body (`Built`).  So
the parser makes the same response of what `serialize` writes, in whatever order the map is
and in whatever pieces it comes (`HttpResponse.received_serialize`).
-/
namespace NeuStack
open HttpParser (cutLine trim contentLengthOf maxBufferSize)
open StringUtils (iequals stoulSafe stoiSafe readNumber)

/-! ## Numbers -/

theorem decimal_eq_digitsValue (s : Bytes) : StringUtils.decimal s = digitsValue s := by
  rw [StringUtils.decimal, digitsValue]
  congr 1
  funext n b
  rw [Nat.mul_comm]

theorem digit_cases : ∀ n < 256, StringUtils.isDigit (UInt8.ofNat n) = true →
    ¬ StringUtils.isSpace (UInt8.ofNat n) = true ∧ UInt8.ofNat n ≠ 43 ∧ UInt8.ofNat n ≠ 45 := by
  decide +kernel

/-- What is read of the digits that were written. -/
theorem readNumber_decimal (n : Nat) : readNumber (decimal n) = some (false, n) := by
  have hall : ∀ b ∈ decimal n, StringUtils.isDigit b = true := fun b hb => digit_of_mem_decimal hb
  have htake : (decimal n).takeWhile StringUtils.isDigit = decimal n :=
    List.takeWhile_eq_self_iff.mpr hall
  have hvalue : StringUtils.decimal (decimal n) = n := by
    rw [decimal_eq_digitsValue, digitsValue_decimal]
  have hne := decimal_ne_nil n
  generalize decimal n = digits at hall htake hvalue hne
  obtain ⟨d, rest, rfl⟩ := List.exists_cons_of_ne_nil hne
  have hcases := digit_cases d.toNat d.toNat_lt
  rw [UInt8.ofNat_toNat] at hcases
  obtain ⟨hspace, hplus, hminus⟩ := hcases (hall d List.mem_cons_self)
  rw [readNumber, List.dropWhile_cons_of_neg hspace]
  split
  rename_i sign digits hsign
  split at hsign
  · rename_i hmatch
    exact absurd (List.cons.inj hmatch).1 hplus
  · rename_i hmatch
    exact absurd (List.cons.inj hmatch).1 hminus
  · cases hsign
    rw [htake, if_neg hne, hvalue]

theorem stoulSafe_decimal {n : Nat} (hn : n < 2 ^ 64) : stoulSafe (decimal n) 0 = n := by
  rw [stoulSafe, readNumber_decimal]
  dsimp only
  rw [if_neg (Nat.not_le.mpr hn), if_neg Bool.false_ne_true]

theorem stoiSafe_decimal {n : Nat} (hn : n ≤ 2147483647) : stoiSafe (decimal n) 0 = n := by
  rw [stoiSafe, readNumber_decimal]
  dsimp only
  rw [if_neg Bool.false_ne_true, if_neg (by omega)]

/-! ## Building -/

/-- `HttpStatus` -/
def httpStatuses : List Nat :=
  [200, 201, 204, 301, 302, 400, 401, 403, 404, 405, 429, 500, 501, 503]

namespace HttpResponse

/-- `add_header` -/
def addHeader (key value : Bytes) (r : HttpResponse) : HttpResponse :=
  { r with headers := r.headers.add key value }

/-- The calls that build a response. -/
inductive Call where
  | setHeader (key value : Bytes)
  | addHeader (key value : Bytes)
  | setBody (content : Bytes)

def call (r : HttpResponse) : Call → HttpResponse
  | .setHeader key value => r.setHeader key value
  | .addHeader key value => r.addHeader key value
  | .setBody content => r.setBody content

/-- A response with some status. -/
def built (status : Nat) (calls : List Call) : HttpResponse := calls.foldl call { status }

/-- A header of the application: the names of the framing are not used. -/
structure AllowedHeader (key value : Bytes) : Prop where
  no_colon : 58 ∉ key
  key_line : cutLine key = none
  value_line : cutLine value = none
  value_start : value.head? ≠ some 32
  not_length : iequals key (ascii "Content-Length") = false
  not_encoding : iequals key (ascii "Transfer-Encoding") = false

/-- Any body is allowed. -/
def Call.Allowed : Call → Prop
  | .setHeader key value | .addHeader key value => AllowedHeader key value
  | .setBody _ => True

theorem AllowedHeader.writable {key value : Bytes} (h : AllowedHeader key value) :
    Writable key value where
  no_colon := h.no_colon
  one_line := by
    refine (Delimited.cutPair_append_cons (by decide) (by decide)).mpr ⟨h.key_line, ?_⟩
    exact (Delimited.cutPair_cons_of_ne (by decide) _).mpr h.value_line
  trimmed := by
    cases value with
    | nil => rfl
    | cons b value =>
      have hb : b ≠ 32 := fun heq => h.value_start (congrArg some heq)
      exact List.dropWhile_cons_of_neg (by simpa using hb)

end HttpResponse

namespace HttpHeaders
variable {headers : HttpHeaders} {key value : Bytes}

theorem names_set (key value : Bytes) (headers : HttpHeaders) :
    (headers.set key value).map Prod.fst = (headers.add key value).map Prod.fst := by
  induction headers with
  | nil => rfl
  | cons e headers ih =>
    obtain ⟨k, values⟩ := e
    rw [set, add]
    split
    · rfl
    · rw [List.map_cons, List.map_cons, ih]

/-- Only the entry of the name is new. -/
theorem mem_set (h : (headers.map Prod.fst).Nodup) {e : Bytes × List Bytes}
    (he : e ∈ headers.set key value) : e = (key, [value]) ∨ e ∈ headers ∧ e.1 ≠ key := by
  induction headers with
  | nil => exact .inl (List.mem_singleton.mp he)
  | cons e' headers ih =>
    obtain ⟨k, values⟩ := e'
    obtain ⟨hnew, hrest⟩ := List.nodup_cons.mp h
    rw [set] at he
    split at he
    · rename_i hk
      subst hk
      rcases List.mem_cons.mp he with rfl | he
      · exact .inl rfl
      · have hname := List.mem_map_of_mem (f := Prod.fst) he
        exact .inr ⟨List.mem_cons_of_mem _ he, fun heq => hnew (heq ▸ hname)⟩
    · rename_i hk
      rcases List.mem_cons.mp he with rfl | he
      · exact .inr ⟨List.mem_cons_self, hk⟩
      · exact (ih hrest he).imp_right fun ⟨hmem, hne⟩ => ⟨List.mem_cons_of_mem _ hmem, hne⟩

theorem mem_set_self (key value : Bytes) (headers : HttpHeaders) :
    (key, [value]) ∈ headers.set key value := by
  induction headers with
  | nil => exact List.mem_singleton_self _
  | cons e headers ih =>
    obtain ⟨k, values⟩ := e
    rw [set]
    split
    · rename_i hk
      rw [hk]
      exact List.mem_cons_self
    · exact List.mem_cons_of_mem _ ih

/-- The entries of other names stay. -/
theorem mem_set_of_ne {e : Bytes × List Bytes} (he : e ∈ headers) (hne : e.1 ≠ key)
    (value : Bytes) : e ∈ headers.set key value := by
  induction headers with
  | nil => cases he
  | cons e' headers ih =>
    obtain ⟨k, values⟩ := e'
    rw [set]
    rcases List.mem_cons.mp he with rfl | he
    · rw [if_neg hne]
      exact List.mem_cons_self
    · split
      · exact List.mem_cons_of_mem _ he
      · exact List.mem_cons_of_mem _ (ih he)

theorem mem_add_of_ne {e : Bytes × List Bytes} (he : e ∈ headers) (hne : e.1 ≠ key)
    (value : Bytes) : e ∈ headers.add key value := by
  induction headers with
  | nil => cases he
  | cons e' headers ih =>
    obtain ⟨k, values⟩ := e'
    rw [add]
    rcases List.mem_cons.mp he with rfl | he
    · rw [if_neg hne]
      exact List.mem_cons_self
    · split
      · exact List.mem_cons_of_mem _ he
      · exact List.mem_cons_of_mem _ (ih he)

theorem Valid.set (h : headers.Valid) (hwritable : Writable key value) :
    (headers.set key value).Valid where
  names := by
    rw [names_set]
    exact (h.add hwritable).names
  values e he := by
    rcases mem_set h.names he with rfl | ⟨hmem, -⟩
    · exact ⟨List.cons_ne_nil _ _, fun v hv => List.mem_singleton.mp hv ▸ hwritable⟩
    · exact h.values e hmem

end HttpHeaders

namespace HttpResponse

/-- **What the calls keep**: the headers can be read back, the one length is that of the body,
and there is no encoding. -/
structure Built (r : HttpResponse) : Prop where
  valid : r.headers.Valid
  length : ∀ e ∈ r.headers, iequals e.1 (ascii "Content-Length") = true →
    e = (ascii "Content-Length", [decimal r.body.length])
  unset : r.body = [] ∨ (ascii "Content-Length", [decimal r.body.length]) ∈ r.headers
  unchunked : ∀ e ∈ r.headers, iequals e.1 (ascii "Transfer-Encoding") = false

variable {r : HttpResponse}

theorem iequals_length :
    iequals (ascii "Content-Length") (ascii "Content-Length") = true := by decide

theorem length_not_encoding :
    iequals (ascii "Content-Length") (ascii "Transfer-Encoding") = false := by decide

theorem Built.start (status : Nat) : Built { status } :=
  ⟨.nil, List.forall_mem_nil _, .inl rfl, List.forall_mem_nil _⟩

theorem AllowedHeader.ne {key value : Bytes} (h : AllowedHeader key value) :
    ascii "Content-Length" ≠ key := by
  rintro rfl
  exact absurd (h.not_length.symm.trans iequals_length) Bool.false_ne_true

theorem Built.setHeader (h : r.Built) {key value : Bytes} (ha : AllowedHeader key value) :
    (r.setHeader key value).Built where
  valid := h.valid.set ha.writable
  length e he hkey := by
    rcases HttpHeaders.mem_set h.valid.names he with rfl | ⟨hmem, -⟩
    · exact absurd (ha.not_length.symm.trans hkey) Bool.false_ne_true
    · exact h.length e hmem hkey
  unset := h.unset.imp_right fun hmem => HttpHeaders.mem_set_of_ne hmem ha.ne value
  unchunked e he := by
    rcases HttpHeaders.mem_set h.valid.names he with rfl | ⟨hmem, -⟩
    · exact ha.not_encoding
    · exact h.unchunked e hmem

theorem Built.addHeader (h : r.Built) {key value : Bytes} (ha : AllowedHeader key value) :
    (r.addHeader key value).Built where
  valid := h.valid.add ha.writable
  length e he hkey := by
    rcases HttpHeaders.mem_add he with hmem | rfl | ⟨values, -, rfl⟩
    · exact h.length e hmem hkey
    · exact absurd (ha.not_length.symm.trans hkey) Bool.false_ne_true
    · exact absurd (ha.not_length.symm.trans hkey) Bool.false_ne_true
  unset := h.unset.imp_right fun hmem => HttpHeaders.mem_add_of_ne hmem ha.ne value
  unchunked e he := by
    rcases HttpHeaders.mem_add he with hmem | rfl | ⟨values, -, rfl⟩
    · exact h.unchunked e hmem
    · exact ha.not_encoding
    · exact ha.not_encoding

/-- The line of a length. -/
theorem writable_length (n : Nat) : Writable (ascii "Content-Length") (decimal n) where
  no_colon := by decide
  one_line := by
    refine (Delimited.cutPair_append_cons (by decide) (by decide)).mpr ⟨by decide, ?_⟩
    refine (Delimited.cutPair_cons_of_ne (by decide) _).mpr ?_
    exact Delimited.cutPair_of_not_mem fun hmem => absurd (digit_of_mem_decimal hmem) (by decide)
  trimmed := by
    have hdigit : ∀ b ∈ decimal n, Json.isDigit b = true := fun b hb => digit_of_mem_decimal hb
    obtain ⟨d, rest, heq⟩ := List.exists_cons_of_ne_nil (decimal_ne_nil n)
    rw [heq] at hdigit ⊢
    refine List.dropWhile_cons_of_neg fun hspace => ?_
    have hd := hdigit d List.mem_cons_self
    rw [of_decide_eq_true hspace] at hd
    exact absurd hd (by decide)

theorem Built.setBody (h : r.Built) (content : Bytes) : (r.setBody content).Built where
  valid := h.valid.set (writable_length content.length)
  length e he hkey := by
    rcases HttpHeaders.mem_set h.valid.names he with rfl | ⟨hmem, hne⟩
    · rfl
    · have heq := h.length e hmem hkey
      exact absurd (congrArg Prod.fst heq) hne
  unset := .inr (HttpHeaders.mem_set_self ..)
  unchunked e he := by
    rcases HttpHeaders.mem_set h.valid.names he with rfl | ⟨hmem, -⟩
    · exact length_not_encoding
    · exact h.unchunked e hmem

theorem Built.built {status : Nat} {calls : List Call} (h : ∀ c ∈ calls, c.Allowed) :
    (built status calls).Built ∧ (HttpResponse.built status calls).status = status := by
  rw [HttpResponse.built]
  induction calls using List.reverseRecOn with
  | nil => exact ⟨.start status, rfl⟩
  | append_singleton calls c ih =>
    obtain ⟨hbuilt, hstatus⟩ := ih fun c hc => h c (List.mem_append_left _ hc)
    have hc := h c (List.mem_append_right _ (List.mem_singleton_self c))
    rw [List.foldl_concat]
    cases c with
    | setHeader key value => exact ⟨hbuilt.setHeader hc, hstatus⟩
    | addHeader key value => exact ⟨hbuilt.addHeader hc, hstatus⟩
    | setBody content => exact ⟨hbuilt.setBody content, hstatus⟩

/-! ## Reading -/

/-- The length that is read, in any order of the headers. -/
theorem Built.contentLengthOf_eq (h : r.Built) {headers : HttpHeaders}
    (hperm : headers.Perm r.headers) (hlength : r.body.length < 2 ^ 64) :
    contentLengthOf headers 0 = r.body.length := by
  rw [contentLengthOf, HttpHeaders.findIgnoreCase]
  cases hfind : headers.find? fun e => iequals e.1 (ascii "Content-Length") with
  | none =>
    have hempty : r.body = [] := h.unset.resolve_right fun hmem => by
      have hnone := List.find?_eq_none.mp hfind _ (hperm.mem_iff.mpr hmem)
      exact hnone iequals_length
    rw [hempty]
    rfl
  | some e =>
    have hmem := hperm.mem_iff.mp (List.mem_of_find?_eq_some hfind)
    have hkey : iequals e.1 (ascii "Content-Length") = true := by
      have hfound := List.find?_some hfind
      exact hfound
    rw [h.length e hmem hkey]
    exact stoulSafe_decimal hlength

theorem Built.chunkedOf_eq (h : r.Built) {headers : HttpHeaders}
    (hperm : headers.Perm r.headers) : HttpResponseParser.chunkedOf headers false = false := by
  have hnone : headers.find? (fun e => iequals e.1 (ascii "Transfer-Encoding")) = none :=
    List.find?_eq_none.mpr fun e he => by
      rw [h.unchunked e (hperm.mem_iff.mp he)]
      exact Bool.false_ne_true
  rw [HttpResponseParser.chunkedOf, HttpHeaders.findIgnoreCase, hnone]
  rfl

/-- The status line. -/
theorem statusLine_read : ∀ status ∈ httpStatuses,
    cutLine (ascii "HTTP/1.1 " ++ decimal status ++ ascii " " ++ statusText status) = none ∧
      HttpResponseParser.statusString
        (ascii "HTTP/1.1 " ++ decimal status ++ ascii " " ++ statusText status) =
        some (decimal status) ∧ 100 ≤ status ∧ status ≤ 599 := by
  decide +kernel

/-- What is written is a full response. -/
theorem Built.fullResponse (h : r.Built) {headers : HttpHeaders} (hperm : headers.Perm r.headers)
    (hstatus : r.status ∈ httpStatuses) (hlength : r.body.length < 2 ^ 64) :
    FullResponse { r with headers } ({ r with headers } : HttpResponse).serialize := by
  obtain ⟨fields, hlines, hfields⟩ := (h.valid.perm hperm).exists_fields
  obtain ⟨hline, hstring, hle, hge⟩ := statusLine_read r.status hstatus
  refine ⟨_, decimal r.status, fields, [], ?_, hline, hstring, stoiSafe_decimal (by omega), hle,
    hge, hfields.symm, (h.contentLengthOf_eq hperm hlength).symm⟩
  rw [serialize, hlines]
  simp only [List.append_assoc, List.append_nil]

end HttpResponse

namespace HttpResponseParser

/-- Behind the headers, where the transfer is not chunked. -/
theorem headers_unchunked {status : Nat} {rest body behind : Bytes} {fields : List HeaderField}
    (hsplit : rest = HeaderField.lines fields ++ (crlf ++ (body ++ behind)))
    (hlength : body.length = contentLengthOf (HeaderField.collect [] fields) 0)
    (hchunked : chunkedOf (HeaderField.collect [] fields) false = false) :
    (Rounds.run message.round 3 (behindStatus status rest)).state ≠ .error := by
  have hparse :
      HttpParser.parseHeaders (rest.length + 1) [] (behindStatus status rest).toHttpParser =
      (true, HeaderField.collect [] fields,
        HttpParser.endHeaders (HeaderField.collect [] fields)
          { (behindStatus status rest).toHttpParser with buffer := body ++ behind }) :=
    HttpParser.parseHeaders_lines fields hsplit (Nat.lt_succ_self _)
  have hround := (round_headers (p := behindStatus status rest) rfl hparse).trans (if_pos rfl)
  generalize hq : message.withHeaders (HeaderField.collect [] fields) _
    (behindStatus status rest) = q at hround
  have hcheck : q.checkChunked = (true, { q with chunked := false }) := by
    have hfalse : chunkedOf q.response.headers q.chunked = false := by
      subst hq
      exact hchunked
    rw [checkChunked]
    dsimp only
    rw [hfalse, if_neg fun hboth => Bool.false_ne_true hboth.1]
  rw [hcheck] at hround
  rw [Rounds.run_of_goes hround]
  have hbuffer : q.buffer = body ++ behind := by
    subst hq
    rfl
  have hq' : q.contentLength = body.length := by
    subst hq
    exact hlength.symm
  have hstate : q.state = .body ∨ q.state = .complete := by
    subst hq
    exact HttpParser.endHeaders_state ..
  rcases hstate with hbody | hcomplete
  · rw [run_body (p := { q with chunked := false }) hbody]
    split
    · intro herror
      cases herror
    · rename_i hshort
      rw [hbuffer, hq', List.length_append] at hshort
      omega
  · have hstop := message.run_stopped (p := { q with chunked := false }) (Or.inl hcomplete) 2
    rw [hstop]
    intro herror
    cases hcomplete.symm.trans herror

/-- A full response is read, where the transfer is not chunked. -/
theorem feedLoop_unchunked {r : HttpResponse} {bytes : Bytes} (h : FullResponse r bytes)
    (hchunked : chunkedOf r.headers false = false) :
    (feedLoop (start bytes)).state = .complete ∧ (feedLoop (start bytes)).response = r := by
  refine (feedLoop_full h).resolve_left ?_
  obtain ⟨line, status, fields, behind, rfl, hline, hstatus, hcode, hle, hge, hheaders,
    hlength⟩ := h
  rw [hheaders] at hlength hchunked
  generalize hrest : HeaderField.lines fields ++ (crlf ++ (r.body ++ behind)) = rest
  have hround := round_firstLine (p := start (line ++ crlf ++ rest)) rfl
  have hread : (start (line ++ crlf ++ rest)).parseStatusLine =
      some (behindStatus r.status rest) := by
    rw [parseStatusLine, show cutLine (start (line ++ crlf ++ rest)).buffer = _ from
      HttpParser.cutLine_line hline rest]
    dsimp only
    rw [hstatus]
    dsimp only
    rw [if_neg (by omega), hcode]
    rfl
  rw [hread] at hround
  rw [feedLoop_eq, Rounds.run_of_goes hround]
  exact headers_unchunked hrest.symm hlength hchunked

end HttpResponseParser

namespace HttpResponse

/-- **Responses come back.**  What is written of a response, with its headers in any order, is
read as the same response from any pieces that fit the buffer. -/
theorem received_serialize {status : Nat} (hstatus : status ∈ httpStatuses) (calls : List Call)
    (hcalls : ∀ c ∈ calls, c.Allowed) (headers : HttpHeaders)
    (hperm : headers.Perm (built status calls).headers) (pieces : List Bytes)
    (hpieces : pieces.flatten = ({ built status calls with headers } : HttpResponse).serialize)
    (hfits : pieces.flatten.length ≤ maxBufferSize) :
    (HttpResponseParser.received pieces).state = .complete ∧
      (HttpResponseParser.received pieces).response.status = status ∧
      (HttpResponseParser.received pieces).response.headers.Perm (built status calls).headers ∧
      (HttpResponseParser.received pieces).response.body = (built status calls).body := by
  obtain ⟨hbuilt, hcode⟩ : (built status calls).Built ∧ (built status calls).status = status :=
    Built.built hcalls
  have hlength : (built status calls).body.length < 2 ^ 64 := by
    have hle : (built status calls).body.length ≤ pieces.flatten.length := by
      rw [hpieces, serialize, List.length_append]
      exact Nat.le_add_left ..
    exact Nat.lt_of_le_of_lt (hle.trans hfits) (by decide)
  have hfull := hbuilt.fullResponse hperm (by rwa [hcode]) hlength
  obtain ⟨hcomplete, hresponse⟩ :=
    HttpResponseParser.feedLoop_unchunked hfull (hbuilt.chunkedOf_eq hperm)
  have hlarge (p : HttpResponseParser) : HttpResponseParser.weighing.retained p.tooLarge =
      HttpResponseParser.weighing.retained p := rfl
  have hretained : HttpResponseParser.weighing.retained {} + pieces.flatten.length ≤
      maxBufferSize := Nat.le_trans (Nat.le_of_eq (Nat.zero_add _)) hfits
  obtain ⟨rest, hrest, -⟩ := HttpResponseParser.weighing.feed_pieces hlarge rfl hretained
  rw [← HttpResponseParser.received_eq] at hrest
  have hloop : HttpResponseParser.message.more rest (HttpResponseParser.received pieces) =
      HttpResponseParser.feedLoop (HttpResponseParser.start pieces.flatten) :=
    hrest.trans (HttpResponseParser.feedLoop_eq _).symm
  rw [← hpieces, ← hloop] at hcomplete hresponse
  have hsame : (HttpResponseParser.received pieces).response =
      { built status calls with headers } := hresponse
  rw [hsame]
  exact ⟨hcomplete, hcode, hperm, rfl⟩

/-- Two cookies, and a body that looks like headers. -/
def cookies : List Call :=
  [.addHeader (ascii "Set-Cookie") (ascii "a=1"), .setBody (ascii "\r\n\r\nContent-Length: 9"),
    .addHeader (ascii "Set-Cookie") (ascii "b=2")]

/-- The headers of `cookies` in the other order. -/
def cookiesTurned : HttpResponse :=
  { built 200 cookies with headers := (built 200 cookies).headers.reverse }

theorem received_serialize_cookies :
    (HttpResponseParser.received
        [cookiesTurned.serialize.take 40, cookiesTurned.serialize.drop 40]).state = .complete ∧
      (HttpResponseParser.received
        [cookiesTurned.serialize.take 40, cookiesTurned.serialize.drop 40]).response.body =
        ascii "\r\n\r\nContent-Length: 9" := by
  have hpieces : [cookiesTurned.serialize.take 40, cookiesTurned.serialize.drop 40].flatten =
      cookiesTurned.serialize := by
    rw [List.flatten_cons, List.flatten_singleton, List.take_append_drop]
  have hcalls : ∀ c ∈ cookies, c.Allowed := by
    intro c hc
    rcases List.mem_cons.mp hc with rfl | hc
    · exact ⟨by decide, by decide, by decide, by decide, by decide, by decide⟩
    · rcases List.mem_cons.mp hc with rfl | hc
      · trivial
      · rw [List.mem_singleton.mp hc]
        exact ⟨by decide, by decide, by decide, by decide, by decide, by decide⟩
  have hback := received_serialize (show 200 ∈ httpStatuses by decide) cookies hcalls _
    (List.reverse_perm _) _ hpieces (by rw [hpieces]; decide +kernel)
  exact ⟨hback.1, hback.2.2.2⟩

end HttpResponse
end NeuStack
