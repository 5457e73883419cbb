import NeuStack.HttpProduced

/-! # Which requests get through

A parser that is fed a request in pieces keeps what it has not used yet: the beginning of a
line, or of the body (`Stretch.buffer`).  So a request gets through in single bytes if none of
its lines is too long, nor its body (`WireRequest.Fits`); and in no pieces does another one
(`WithinLimit.fits`).
-/
namespace NeuStack
open HttpParser (cutLine parseHeaders contentLengthOf maxBufferSize)
open HeaderField (lines collect)

/-- A line of which the end has not come. -/
theorem cutLine_short {line x rest rest' : Bytes} (hline : cutLine line = none)
    (hsplit : x ++ rest' = line ++ crlf ++ rest) (hshort : x.length < line.length + 2) :
    cutLine x = none := by
  cases hcut : cutLine x with
  | none => rfl
  | some cut =>
    obtain ⟨l, y⟩ := cut
    have hmore := HttpParser.cutLine_append hcut rest'
    rw [hsplit, HttpParser.cutLine_line hline] at hmore
    obtain ⟨rfl, -⟩ := Prod.mk.inj (Option.some.inj hmore)
    have hlength := Delimited.length_of_cutPair hcut
    omega

/-- Header lines that have been read need not be there. -/
theorem HttpParser.parseHeaders_skip {fields : List HeaderField} {headers : HttpHeaders}
    {p : HttpParser} {rest : Bytes} {n m : Nat} (h : p.buffer = lines fields ++ rest)
    (hn : p.buffer.length < n) (hm : rest.length < m) :
    parseHeaders n headers p =
      parseHeaders m (collect headers fields) { p with buffer := rest } := by
  induction fields generalizing headers p n with
  | nil =>
    obtain rfl : p.buffer = rest := h
    exact parseHeaders_fuel hn hm
  | cons f fields ih =>
    cases n with
    | zero => exact absurd hn (Nat.not_lt_zero _)
    | succ n =>
      rw [HeaderField.lines_cons] at h
      have hcut := h ▸ cutLine_line f.one_line (lines fields ++ rest)
      have hlength := length_of_cutLine hcut
      rw [parseHeaders_field hcut (Delimited.cutAt_of f.no_colon f.value)]
      exact ih rfl (by dsimp only; omega)

/-! ## Beginnings of a request -/

namespace RequestHead

/-- The bytes of the request line and of the header lines. -/
def read (h : RequestHead) : Bytes :=
  h.method ++ 32 :: (h.uri ++ 32 :: h.version) ++ crlf ++ lines h.fields

theorem wire_eq (h : RequestHead) (rest : Bytes) : h.wire rest = h.read ++ (crlf ++ rest) :=
  (List.append_assoc ..).symm

theorem read_more (h : RequestHead) (fields : List HeaderField) :
    (h.more fields).read = h.read ++ lines fields := by
  rw [read, read, more, lines, List.flatMap_append, ← lines, ← lines, ← List.append_assoc]

end RequestHead

namespace HttpRequestParser

/-- In the middle of the first line. -/
theorem feedLoop_short {x : Bytes} (h : cutLine x = none) : feedLoop (start x) = start x := by
  have hround := round_firstLine (p := start x) rfl
  rw [show (start x).parseRequestLine = none by rw [parseRequestLine, show (start x).buffer = x from
    rfl, h]] at hround
  rw [feedLoop_eq, Rounds.run_of_waits hround]

theorem feedLoop_line {line : Bytes} (hline : cutLine line = none) (y : Bytes) :
    feedLoop (start (line ++ crlf ++ y)) = match requestLine line with
      | none => { state := .error, buffer := y, error := "Invalid request line" }
      | some (method, uri, version) =>
        Rounds.run message.round 3
          { state := .headers, buffer := y
            request := { splitPathQuery uri { method := .parse method } with version } } := by
  have hround := round_firstLine (p := start (line ++ crlf ++ y)) rfl
  have hcut : cutLine (start (line ++ crlf ++ y)).buffer = some (line, y) :=
    HttpParser.cutLine_line hline y
  rw [parseRequestLine, hcut] at hround
  cases hparts : requestLine line with
  | none =>
    simp only [hparts] at hround
    rw [feedLoop_eq, Rounds.run_of_goes hround]
    exact message.run_stopped (Or.inr rfl) 3
  | some parts =>
    simp only [hparts] at hround
    rw [feedLoop_eq, Rounds.run_of_goes hround]
    rfl

theorem round_skip (fields : List HeaderField) (y : Bytes) (request : HttpRequest) :
    message.round { state := .headers, buffer := lines fields ++ y, request } =
      message.round
        { state := .headers, buffer := y
          request := { request with headers := collect request.headers fields } } := by
  let behind : HttpRequest := { request with headers := collect request.headers fields }
  rcases hparse : parseHeaders (y.length + 1) behind.headers { state := .headers, buffer := y } with
    ⟨ended, headers, q⟩
  have hskip : parseHeaders ((lines fields ++ y).length + 1) request.headers
      { state := .headers, buffer := lines fields ++ y } = _ :=
    HttpParser.parseHeaders_skip rfl (Nat.lt_succ_self _) (Nat.lt_succ_self y.length)
  have hround := message.round_headers (p := ⟨{ state := .headers, buffer := y }, behind⟩) rfl
    hparse
  have hround' := message.round_headers
    (p := ⟨{ state := .headers, buffer := lines fields ++ y }, request⟩) rfl (hskip.trans hparse)
  exact hround'.trans hround.symm

/-- **Behind the header lines.** -/
theorem feedLoop_read (h : RequestHead) (y : Bytes) :
    feedLoop (start (h.read ++ y)) =
      Rounds.run message.round 3 { state := .headers, buffer := y, request := h.request } := by
  have hline : requestLine (h.method ++ 32 :: (h.uri ++ 32 :: h.version)) =
      some (h.method, h.uri, h.version) := by
    rw [requestLine, Delimited.cutAt_of h.method_word]
    dsimp only
    rw [Delimited.cutAt_of h.uri_word]
  have hheaders := (splitPathQuery_kept h.uri { method := .parse h.method }).1
  rw [RequestHead.read, List.append_assoc, feedLoop_line h.one_line, hline]
  refine (Rounds.run_congr (round_skip _ _ _) 2).trans ?_
  rw [RequestHead.request]
  dsimp only
  rw [hheaders]

theorem feedLoop_waits (h : RequestHead) {z : Bytes} (hcut : cutLine z = none) :
    feedLoop (start (h.read ++ z)) =
      { state := .headers, buffer := z, request := h.request } := by
  have hparse : parseHeaders (z.length + 1) h.request.headers
      { state := .headers, buffer := z } = _ := HttpParser.parseHeaders_wait hcut
  have hround := message.round_headers (p := ⟨{ state := .headers, buffer := z }, h.request⟩) rfl
    hparse
  rw [feedLoop_read]
  exact Rounds.run_of_waits hround 2

/-- At a line that is no header. -/
theorem feedLoop_fails (h : RequestHead) {line : Bytes} (hcut : cutLine line = none)
    (hline : line ≠ []) (hcolon : Delimited.cutAt 58 line = none) (z : Bytes) :
    feedLoop (start (h.read ++ (line ++ crlf ++ z))) =
      { state := .error, buffer := z, error := "Invalid header line", request := h.request } := by
  have hparse : parseHeaders ((line ++ crlf ++ z).length + 1) h.request.headers
      { state := .headers, buffer := line ++ crlf ++ z } = _ :=
    HttpParser.parseHeaders_bad (HttpParser.cutLine_line hcut z) hline hcolon
  have hround := message.round_headers
    (p := ⟨{ state := .headers, buffer := line ++ crlf ++ z }, h.request⟩) rfl hparse
  rw [feedLoop_read]
  exact (Rounds.run_of_goes hround 2).trans (message.run_stopped (Or.inr rfl) 2)

/-- In the middle of the body. -/
theorem feedLoop_body (h : RequestHead) {z : Bytes}
    (hshort : z.length < contentLengthOf h.request.headers 0) :
    feedLoop (start (h.wire z)) =
      { state := .body, buffer := z, contentLength := contentLengthOf h.request.headers 0
        request := h.request } := by
  let p : HttpRequestParser :=
    { state := .body, buffer := z, contentLength := contentLengthOf h.request.headers 0
      request := h.request }
  have hstate : behindHeaders h.request h.request.headers z = p := by
    rw [behindHeaders, HttpParser.endHeaders, if_pos (Nat.zero_lt_of_lt hshort)]
  have hbody : (message.base p).parseBody = none := if_neg (Nat.not_le.mpr hshort)
  have hround : message.round p = _ := message.round_body rfl
  rw [hbody] at hround
  rw [feedLoop_head, hstate, Rounds.run_of_waits hround]

end HttpRequestParser

/-! ## What is kept of it -/

open HttpRequestParser (feedLoop start)

/-- **A part of a request that is kept until its end has come**, and what stands before it. -/
inductive Stretch : Bytes → Bytes → Prop
  | firstLine {line : Bytes} (hline : cutLine line = none) : Stretch [] (line ++ crlf)
  | field (h : RequestHead) (f : HeaderField) : Stretch h.read (f.line ++ crlf)
  | blank (h : RequestHead) : Stretch h.read crlf
  | body (h : RequestHead) (body : Bytes)
      (hlength : body.length = contentLengthOf h.request.headers 0) : Stretch (h.wire []) body

/-- Before its end has come, it is what is in the buffer. -/
theorem Stretch.buffer {before stretch part : Bytes} (h : Stretch before stretch)
    (hpart : part <+: stretch) (hshort : part.length < stretch.length) :
    (feedLoop (start (before ++ part))).buffer = part := by
  obtain ⟨rest, hrest⟩ := hpart
  have hline {line : Bytes} (hline : cutLine line = none) (hall : line ++ crlf = stretch) :
      cutLine part = none := by
    rw [← hall, List.length_append] at hshort
    have hsplit : part ++ rest = line ++ crlf ++ [] := by rw [hrest, ← hall, List.append_nil]
    exact cutLine_short hline hsplit hshort
  cases h with
  | firstLine h => rw [List.nil_append, HttpRequestParser.feedLoop_short (hline h rfl)]; rfl
  | field h f => rw [HttpRequestParser.feedLoop_waits h (hline f.one_line rfl)]
  | blank h =>
    rw [HttpRequestParser.feedLoop_waits h (hline (show cutLine [] = none from rfl) rfl)]
  | body h body hlength =>
    have hwire : h.wire [] ++ part = h.wire part := by
      rw [h.wire_eq, h.wire_eq, List.append_nil, List.append_assoc]
    rw [hwire, HttpRequestParser.feedLoop_body h (hlength ▸ hshort)]

/-- A beginning with no part that is too long. -/
def WithinLimit (x : Bytes) : Prop :=
  ∀ before stretch, Stretch before stretch → before ++ stretch <+: x →
    stretch.length ≤ maxBufferSize

theorem WithinLimit.nil : WithinLimit [] := by
  intro before stretch _ hprefix
  rw [(List.append_eq_nil_iff.mp (List.prefix_nil.mp hprefix)).2]
  exact Nat.zero_le _

/-- **What a parser takes** is within the limit. -/
theorem WithinLimit.append {x data : Bytes} (h : WithinLimit x)
    (hfits : (feedLoop (start x)).buffer.length + data.length ≤ maxBufferSize) :
    WithinLimit (x ++ data) := by
  intro before stretch hstretch hprefix
  have hlength := hprefix.length_le
  rw [List.length_append, List.length_append] at hlength
  by_cases hold : before.length + stretch.length ≤ x.length
  · refine h before stretch hstretch ?_
    refine List.prefix_of_prefix_length_le hprefix (List.prefix_append x data) ?_
    rwa [List.length_append]
  -- the end of the part has come now
  by_cases hnew : x.length ≤ before.length
  · omega
  · obtain ⟨part, hpart⟩ : before <+: x :=
      List.prefix_of_prefix_length_le ((List.prefix_append _ _).trans hprefix)
        (List.prefix_append x data) (by omega)
    rw [← hpart, List.length_append] at hold hlength
    have hbefore : part <+: stretch := by
      rw [← hpart, List.append_assoc, List.prefix_append_right_inj] at hprefix
      exact List.prefix_of_prefix_length_le (List.prefix_append part data) hprefix (by omega)
    have hbuffer := hstretch.buffer hbefore (by omega)
    rw [hpart] at hbuffer
    rw [hbuffer] at hfits
    omega

namespace WireRequest

/-- **A request that the parser lets through**, if it comes in pieces that are small enough. -/
structure Fits (r : WireRequest) : Prop where
  requestLine : r.requestLine.length + 2 ≤ maxBufferSize
  fields : ∀ f ∈ r.fields, f.line.length + 2 ≤ maxBufferSize
  body : r.body.length ≤ maxBufferSize

theorem wire_eq (r : WireRequest) : r.wire = r.head.read ++ (crlf ++ r.body) :=
  (List.append_assoc ..).symm

end WireRequest

theorem WithinLimit.fits {x : Bytes} {r : WireRequest} (h : WithinLimit x) (hwire : r.wire <+: x) :
    r.Fits where
  requestLine := by
    have hline := h [] _ (.firstLine r.one_line) ((List.prefix_append _ _).trans hwire)
    rwa [List.length_append] at hline
  fields f hf := by
    obtain ⟨fields, behind, hfields⟩ := List.append_of_mem hf
    have hfront : (r.head.read) <+: r.wire := r.wire_eq ▸ List.prefix_append _ _
    have hline := h _ _ (.field { r.head with fields } f)
      (List.IsPrefix.trans ?_ (hfront.trans hwire))
    · rwa [List.length_append] at hline
    · rw [RequestHead.read, RequestHead.read, List.append_assoc _ (lines fields)]
      refine (List.prefix_append_right_inj _).mpr ?_
      rw [WireRequest.head, hfields, lines, lines, List.flatMap_append, List.flatMap_cons]
      exact (List.prefix_append_right_inj _).mpr (List.prefix_append _ _)
  body := by
    refine h _ _ (.body r.head r.body r.body_length) ?_
    rw [RequestHead.wire_eq, List.append_assoc, List.append_assoc]
    exact r.wire_eq ▸ hwire

/-! ## Byte by byte -/

/-- A beginning that goes on behind `before` ends in the next part, or goes on behind it. -/
theorem prefix_part {x before part behind : Bytes} (hx : x <+: before ++ (part ++ behind))
    (hbefore : before <+: x) :
    (∃ l, x = before ++ l ∧ l <+: part ∧ l.length < part.length) ∨ before ++ part <+: x := by
  rw [← List.append_assoc] at hx
  by_cases hlong : (before ++ part).length ≤ x.length
  · exact .inr (List.prefix_of_prefix_length_le (List.prefix_append _ behind) hx hlong)
  · obtain ⟨l, rfl⟩ := hbefore
    rw [List.length_append, List.length_append] at hlong
    rw [List.append_assoc, List.prefix_append_right_inj] at hx
    have hshort : l.length < part.length := by omega
    exact .inl ⟨l, rfl,
      List.prefix_of_prefix_length_le hx (List.prefix_append part behind) (Nat.le_of_lt hshort),
      hshort⟩

theorem prefix_fields {x tail : Bytes} (fields : List HeaderField) {h : RequestHead}
    (hx : x <+: h.read ++ (lines fields ++ tail)) (hread : h.read <+: x) :
    (∃ h' : RequestHead, ∃ f ∈ fields, ∃ l, x = h'.read ++ l ∧ l <+: f.line ++ crlf ∧
      l.length < (f.line ++ crlf).length) ∨ h.read ++ lines fields <+: x := by
  induction fields generalizing h with
  | nil =>
    right
    rw [show h.read ++ lines [] = h.read from List.append_nil _]
    exact hread
  | cons f fields ih =>
    rw [HeaderField.lines_cons] at hx
    rcases prefix_part hx hread with ⟨l, hl⟩ | hline
    · exact .inl ⟨h, f, List.mem_cons_self, l, hl⟩
    · have hmore : (h.more [f]).read = h.read ++ (f.line ++ crlf) := by
        rw [h.read_more, lines, List.flatMap_singleton]
      rcases ih (h := h.more [f]) (by rwa [hmore, List.append_assoc]) (by rwa [hmore]) with
        hin | hall
      · obtain ⟨h', f', hf', hl⟩ := hin
        exact .inl ⟨h', f', List.mem_cons_of_mem _ hf', hl⟩
      · right
        rwa [hmore, List.append_assoc, ← h.read.append_nil, List.append_assoc, List.nil_append,
          ← List.append_nil (lines fields), ← HeaderField.lines_cons, List.append_nil] at hall

/-- In the middle of a request that fits, there is room for another byte. -/
theorem WireRequest.Fits.buffer_lt {r : WireRequest} (h : r.Fits) {x : Bytes} (hx : x <+: r.wire)
    (hshort : x.length < r.wire.length) : (feedLoop (start x)).buffer.length < maxBufferSize := by
  have hpart {before stretch l : Bytes} (hstretch : Stretch before stretch)
      (hl : x = before ++ l ∧ l <+: stretch ∧ l.length < stretch.length)
      (hmax : stretch.length ≤ maxBufferSize) :
      (feedLoop (start x)).buffer.length < maxBufferSize := by
    obtain ⟨rfl, hprefix, hlength⟩ := hl
    rw [hstretch.buffer hprefix hlength]
    exact Nat.lt_of_lt_of_le hlength hmax
  let first : RequestHead := { r.head with fields := [] }
  have hfirst : first.read = r.requestLine ++ crlf := List.append_nil _
  have hwire : r.wire = first.read ++ (lines r.fields ++ (crlf ++ r.body)) := by rw [hfirst]; rfl
  have hread : first.read ++ lines r.fields = r.head.read := by rw [hfirst]; rfl
  have hx₀ : x <+: [] ++ (r.requestLine ++ crlf ++ (lines r.fields ++ (crlf ++ r.body))) := hx
  rcases prefix_part hx₀ List.nil_prefix with ⟨l, hl⟩ | hline
  · refine hpart (.firstLine r.one_line) hl ?_
    rw [List.length_append]
    exact h.requestLine
  rcases prefix_fields r.fields (hwire ▸ hx) (hfirst ▸ hline) with ⟨h', f, hf, l, hl⟩ | hfields
  · refine hpart (.field h' f) hl ?_
    rw [List.length_append]
    exact h.fields f hf
  rw [hread] at hfields
  rcases prefix_part (r.wire_eq ▸ hx) hfields with ⟨l, hl⟩ | hblank
  · exact hpart (.blank r.head) hl (by decide)
  have hhead : r.head.wire [] = r.head.read ++ crlf := by rw [r.head.wire_eq, List.append_nil]
  have hx₁ : x <+: r.head.read ++ crlf ++ (r.body ++ []) := by
    rw [List.append_nil, List.append_assoc]
    exact r.wire_eq ▸ hx
  rcases prefix_part hx₁ hblank with ⟨l, hl⟩ | hall
  · exact hpart (hhead ▸ .body r.head r.body r.body_length) hl h.body
  · rw [List.append_assoc, ← r.wire_eq] at hall
    exact absurd hall.length_le (Nat.not_le_of_lt hshort)

end NeuStack
