import NeuStack.HeaderCase
import NeuStack.HttpHeaderLines

/-! # Requests with recased headers

The parser frames two byte strings that differ in the case of header names in the same way
(`received_alike`): in whatever pieces they come, two parsers are in the same state, with
requests that are equal but for the case of the names.
-/
namespace NeuStack
open HttpParser (cutLine trim contentLengthOf maxBufferSize)
open HeaderField (lines collect)
open StringUtils (iequals toLower)

/-! ## Headers -/

/-- The same values, to names that are equal up to case. -/
def HttpHeaders.Alike (headers headers' : HttpHeaders) : Prop :=
  List.Forall₂ (fun e e' => iequals e.1 e'.1 = true ∧ e.2 = e'.2) headers headers'

namespace HttpHeaders.Alike
variable {headers headers' : HttpHeaders}

theorem refl (headers : HttpHeaders) : headers.Alike headers :=
  List.forall₂_same.mpr fun e _ => ⟨iequals_refl e.1, rfl⟩

/-- A search that ignores the case finds the same. -/
theorem findIgnoreCase (h : headers.Alike headers') (key : Bytes) :
    headers.findIgnoreCase key = headers'.findIgnoreCase key := by
  induction h with
  | nil => rfl
  | @cons e e' headers headers' he _ ih =>
    obtain ⟨hname, hvalues⟩ := he
    rw [HttpHeaders.findIgnoreCase, HttpHeaders.findIgnoreCase] at ih ⊢
    rw [List.find?_cons, List.find?_cons, iequals_congr hname key]
    cases iequals e'.1 key with
    | true => exact congrArg List.head? hvalues
    | false => exact ih

theorem contentLengthOf (h : headers.Alike headers') (default : Nat) :
    contentLengthOf headers default = contentLengthOf headers' default := by
  rw [HttpParser.contentLengthOf, HttpParser.contentLengthOf, h.findIgnoreCase]

end HttpHeaders.Alike

theorem HeaderField.collect_distinct {fields : List HeaderField}
    (h : (fields.map (·.key)).Nodup) :
    collect [] fields = fields.map fun f => (f.key, [trim f.value]) := by
  induction fields using List.reverseRecOn with
  | nil => rfl
  | append_singleton fields f ih =>
    rw [List.map_append, List.nodup_append] at h
    obtain ⟨hfields, -, hnew⟩ := h
    rw [collect, List.foldl_concat, ← collect, ih hfields, HttpHeaders.add_new, List.map_append]
    · rfl
    · rw [List.map_map]
      exact fun hmem => hnew _ hmem _ (List.mem_singleton_self _) rfl

theorem HeaderField.keys_nodup {fields : List HeaderField} (h : (names fields).Nodup) :
    (fields.map (·.key)).Nodup :=
  List.Nodup.of_map (List.map toLower) (by rwa [List.map_map])

theorem HeaderField.names_alike {fields fields' : List HeaderField}
    (h : List.Forall₂ HeaderField.Alike fields fields') : names fields = names fields' := by
  induction h with
  | nil => rfl
  | cons hf _ ih =>
    rw [names, List.map_cons, ← names, ih, beq_iff_eq.mp hf.key]
    rfl

/-- Lines that are alike are headers that are. -/
theorem HeaderField.collect_alike {fields fields' : List HeaderField}
    (hfields : List.Forall₂ HeaderField.Alike fields fields') (hnames : (names fields).Nodup) :
    (collect [] fields).Alike (collect [] fields') := by
  have hnames' := names_alike hfields ▸ hnames
  rw [collect_distinct (keys_nodup hnames), collect_distinct (keys_nodup hnames'),
    HttpHeaders.Alike, List.forall₂_map_left_iff, List.forall₂_map_right_iff]
  exact hfields.imp fun f f' hf => ⟨hf.key, by rw [hf.value]⟩

/-! ## Requests and parsers -/

/-- Equal, but for the case of header names. -/
structure HttpRequest.Alike (r r' : HttpRequest) : Prop where
  rest : { r with headers := r'.headers } = r'
  headers : r.headers.Alike r'.headers

theorem HttpRequest.Alike.refl (r : HttpRequest) : r.Alike r := ⟨rfl, .refl _⟩

theorem HttpRequest.Alike.withBody {r r' : HttpRequest} (h : r.Alike r') (body : Bytes) :
    HttpRequest.Alike { r with body } { r' with body } := by
  obtain ⟨hrest, hheaders⟩ := h
  exact ⟨by rw [← hrest], hheaders⟩

/-- **The same framing**: the state, what is read of the message, and how much is left over. -/
structure HttpRequestParser.Alike (p p' : HttpRequestParser) : Prop where
  state : p.state = p'.state
  error : p.error = p'.error
  contentLength : p.contentLength = p'.contentLength
  buffer : p.buffer.length = p'.buffer.length
  request : p.request.Alike p'.request

namespace HttpRequestParser

theorem Alike.refl (p : HttpRequestParser) : p.Alike p := ⟨rfl, rfl, rfl, rfl, .refl _⟩

/-- Behind the head of a request. -/
theorem feedLoop_wire_alike {h h' : RequestHead} (halike : h.request.Alike h'.request)
    (z : Bytes) : (feedLoop (start (h.wire z))).Alike (feedLoop (start (h'.wire z))) := by
  have hlength := halike.headers.contentLengthOf 0
  by_cases henough : contentLengthOf h.request.headers 0 ≤ z.length
  · have hrun := run_behindHeaders_of_le h.body_request henough 1
    have hrun' := run_behindHeaders_of_le h'.body_request (hlength ▸ henough) 1
    rw [feedLoop_head, feedLoop_head, hrun, hrun', ← hlength]
    exact ⟨rfl, rfl, rfl, rfl, halike.withBody _⟩
  · have hshort := Nat.lt_of_not_le henough
    rw [feedLoop_body h hshort, feedLoop_body h' (hlength ▸ hshort), ← hlength]
    exact ⟨rfl, rfl, rfl, rfl, halike⟩

/-- Header lines behind a head are lines of a longer head. -/
theorem RequestHead.read_lines (h : RequestHead) (fields : List HeaderField) (z : Bytes) :
    h.read ++ (lines fields ++ z) = (h.more fields).read ++ z := by
  rw [h.read_more, List.append_assoc]

theorem feedLoop_lines_alike {h : RequestHead} {x x' rest rest' : Bytes}
    (hread : ReadAlike rest rest' x x') (hfields : h.fields = [])
    (hnames : ∀ fields tail, x ++ rest = lines fields ++ tail → (HeaderField.names fields).Nodup) :
    (feedLoop (start (h.read ++ x))).Alike (feedLoop (start (h.read ++ x'))) ∧
      ((feedLoop (start (h.read ++ x))).state = .complete → rest = rest') := by
  have hheads {fields fields' : List HeaderField}
      (halike : List.Forall₂ HeaderField.Alike fields fields') {tail : Bytes}
      (hsplit : x ++ rest = lines fields ++ tail) :
      (h.more fields).request.Alike (h.more fields').request := by
    refine ⟨rfl, ?_⟩
    rw [RequestHead.request, RequestHead.request, RequestHead.more, RequestHead.more, hfields]
    exact HeaderField.collect_alike halike (hnames fields tail hsplit)
  cases hread with
  | waits halike hlength hcut hcut' =>
    rw [RequestHead.read_lines, RequestHead.read_lines, feedLoop_waits _ hcut,
      feedLoop_waits _ hcut']
    exact ⟨⟨rfl, rfl, rfl, hlength, hheads halike (List.append_assoc ..)⟩,
      fun hdone => by cases hdone⟩
  | ends halike z hrest =>
    rw [RequestHead.read_lines, RequestHead.read_lines, ← RequestHead.wire_eq,
      ← RequestHead.wire_eq]
    exact ⟨feedLoop_wire_alike (hheads halike (List.append_assoc ..)) z, fun _ => hrest⟩
  | fails halike hcut hline hcolon z =>
    rw [RequestHead.read_lines, RequestHead.read_lines, feedLoop_fails _ hcut hline hcolon,
      feedLoop_fails _ hcut hline hcolon]
    exact ⟨⟨rfl, rfl, rfl, rfl, hheads halike (List.append_assoc ..)⟩,
      fun hdone => by cases hdone⟩

/-- **The same bytes but for the case of header names** are framed in the same way, and behind
the headers nothing differs. -/
theorem feedLoop_alike {x x' rest rest' : Bytes} (h : Recased (x ++ rest) (x' ++ rest'))
    (hnames : DistinctNames (x ++ rest)) (hlength : x.length = x'.length) :
    (feedLoop (start x)).Alike (feedLoop (start x')) ∧
      ((feedLoop (start x)).state = .complete → rest = rest') := by
  generalize hX : x ++ rest = X at h hnames
  generalize hX' : x' ++ rest' = X' at h
  cases h with
  | same =>
    obtain ⟨rfl, rfl⟩ := List.append_inj (hX.trans hX'.symm) hlength
    exact ⟨.refl _, fun _ => rfl⟩
  | line line hline hrest =>
    by_cases hlong : line.length + 2 ≤ x.length
    · obtain ⟨y, rfl, rfl⟩ := exists_line hX hlong
      obtain ⟨y', rfl, rfl⟩ := exists_line hX' (hlength ▸ hlong)
      simp only [List.length_append, Nat.add_left_cancel_iff] at hlength
      cases hparts : requestLine line with
      | none =>
        rw [feedLoop_line hline, feedLoop_line hline, hparts]
        exact ⟨⟨rfl, rfl, rfl, hlength, .refl _⟩, nofun⟩
      | some parts =>
        obtain ⟨method, uri, version⟩ := parts
        obtain ⟨rfl, hmethod, huri⟩ := requestLine_eq_some hparts
        let first : RequestHead := ⟨method, uri, version, [], hmethod, huri, hline⟩
        have hfirst : first.read = method ++ 32 :: (uri ++ 32 :: version) ++ crlf :=
          List.append_nil _
        rw [← hfirst]
        refine feedLoop_lines_alike (hrest.read hlength) rfl fun fields tail hsplit => ?_
        exact hnames _ fields tail hline (by rw [hsplit])
    · have hshort := Nat.lt_of_not_le hlong
      have hcut := cutLine_short hline hX hshort
      have hcut' := cutLine_short hline hX' (hlength ▸ hshort)
      rw [feedLoop_short hcut, feedLoop_short hcut']
      exact ⟨⟨rfl, rfl, rfl, hlength, .refl _⟩, nofun⟩

/-- **Where the parser is complete** there is a request at the front. -/
theorem feedLoop_complete {x : Bytes} (h : (feedLoop (start x)).state = .complete) :
    ∃ r : WireRequest, r.wire <+: x ∧ (feedLoop (start x)).request = r.request := by
  cases hcut : cutLine x with
  | none =>
    rw [feedLoop_short hcut] at h
    cases h
  | some cut =>
    obtain ⟨line, y⟩ := cut
    have hline := Delimited.cutPair_before hcut
    obtain rfl := HttpParser.cutLine_eq_some hcut
    cases hparts : requestLine line with
    | none =>
      rw [feedLoop_line hline, hparts] at h
      cases h
    | some parts =>
      obtain ⟨method, uri, version⟩ := parts
      obtain ⟨rfl, hmethod, huri⟩ := requestLine_eq_some hparts
      let first : RequestHead := ⟨method, uri, version, [], hmethod, huri, hline⟩
      have hfirst : first.read = method ++ 32 :: (uri ++ 32 :: version) ++ crlf :=
        List.append_nil _
      rw [← hfirst] at h ⊢
      obtain ⟨y', -, hread⟩ : ∃ y', y' = y ∧ ReadAlike [] [] y y' :=
        ⟨y, rfl, (SameLines.same (y ++ [])).read rfl⟩
      cases hread with
      | waits _ _ hz =>
        rw [RequestHead.read_lines, feedLoop_waits _ hz] at h
        cases h
      | fails _ hbad hne hcolon =>
        rw [RequestHead.read_lines, feedLoop_fails _ hbad hne hcolon] at h
        cases h
      | @ends fields _ _ z =>
        let head := first.more fields
        rw [RequestHead.read_lines, ← RequestHead.wire_eq] at h ⊢
        by_cases henough : contentLengthOf head.request.headers 0 ≤ z.length
        · let r := head.withBody (z.take (contentLengthOf head.request.headers 0))
            (by rw [List.length_take, Nat.min_eq_left henough])
          refine ⟨r, ?_, ?_⟩
          · show head.wire (z.take _) <+: head.wire z
            rw [head.wire_eq, head.wire_eq, List.prefix_append_right_inj,
              List.prefix_append_right_inj]
            exact List.take_prefix _ z
          · rw [feedLoop_head, run_behindHeaders_of_le head.body_request henough]
            rfl
        · rw [feedLoop_body _ (Nat.lt_of_not_le henough)] at h
          cases h

/-- It is the only one. -/
theorem feedLoop_front {x a : Bytes} {r : WireRequest} (h : (feedLoop (start x)).state = .complete)
    (hx : x <+: a) (hr : r.wire <+: a) : (feedLoop (start x)).request = r.request := by
  rcases List.prefix_or_prefix_of_prefix hx hr with ⟨b, hb⟩ | ⟨b, rfl⟩
  · by_cases hnil : b = []
    · rw [hnil, List.append_nil] at hb
      rw [hb, feedLoop_wire]
    · have hmiddle := feedLoop_partial hb hnil
      exact absurd h hmiddle.1
  · have hwire := feedLoop_wire r
    have hcomplete : (message.base ((feedLoop (start r.wire)).more b)).state = .complete := by
      rw [hwire]
      rfl
    have hstopped := message.run_stopped (Or.inl hcomplete) 4
    rw [← feedLoop_eq, feedLoop_more] at hstopped
    rw [hstopped, hwire]
    rfl

/-! ## In pieces -/

/-- **Two parsers in the middle of their strings**: what they have read, and what is to come. -/
structure Reading (a a' x x' rest rest' : Bytes) : Prop where
  split : a = x ++ rest
  split' : a' = x' ++ rest'
  length : x.length = x'.length
  limit : WithinLimit x

namespace Reading
variable {a a' x x' data data' rest rest' : Bytes} (hrecased : Recased a a')
  (hnames : DistinctNames a)

theorem start (a a' : Bytes) : Reading a a' [] [] a a' := ⟨rfl, rfl, rfl, .nil⟩

include hrecased hnames

theorem alike (h : Reading a a' x x' rest rest') :
    (feedLoop (.start x)).Alike (feedLoop (.start x')) ∧
      ((feedLoop (.start x)).state = .complete → rest = rest') := by
  obtain ⟨rfl, rfl, hlength, -⟩ := h
  exact feedLoop_alike hrecased hnames hlength

/-- **A piece is read, or it is too much**, by both parsers. -/
theorem feed (h : Reading a a' x x' (data ++ rest) (data' ++ rest'))
    (hdata : data.length = data'.length)
    (hwaits : (feedLoop (.start x)).state ≠ .complete ∧ (feedLoop (.start x)).state ≠ .error) :
    (Reading a a' (x ++ data) (x' ++ data') rest rest' ∧
        (feedLoop (.start x)).feed data = feedLoop (.start (x ++ data)) ∧
        (feedLoop (.start x')).feed data' = feedLoop (.start (x' ++ data'))) ∨
      ((feedLoop (.start x)).feed data).state = .error ∧
        ((feedLoop (.start x)).feed data).Alike ((feedLoop (.start x')).feed data') := by
  have halike := (h.alike hrecased hnames).1
  have hwaits' : (feedLoop (.start x')).state ≠ .complete ∧
      (feedLoop (.start x')).state ≠ .error := halike.state ▸ hwaits
  by_cases hfits : (feedLoop (.start x)).buffer.length + data.length ≤ maxBufferSize
  · left
    refine ⟨⟨?_, ?_, ?_, h.limit.append hfits⟩, feed_partial hwaits hfits, ?_⟩
    · rw [h.split, List.append_assoc]
    · rw [h.split', List.append_assoc]
    · rw [List.length_append, List.length_append, h.length, hdata]
    · exact feed_partial hwaits' (halike.buffer ▸ hdata ▸ hfits)
  · right
    have hlarge {p : HttpRequestParser} {data : Bytes} (hp : p.state ≠ .complete ∧ p.state ≠ .error)
        (hmore : ¬ p.buffer.length + data.length ≤ maxBufferSize) :
        p.feed data = tooLarge { p with buffer := p.buffer ++ data } := by
      rw [HttpRequestParser.feed, if_neg (not_or.mpr hp)]
      dsimp only
      rw [List.length_append, if_pos (Nat.lt_of_not_le hmore)]
      rfl
    rw [hlarge hwaits hfits, hlarge hwaits' (halike.buffer ▸ hdata ▸ hfits)]
    refine ⟨rfl, rfl, rfl, halike.contentLength, ?_, halike.request⟩
    show (_ ++ data).length = (_ ++ data').length
    rw [List.length_append, List.length_append, halike.buffer, hdata]

end Reading

/-- Two parsers that read their strings, or have stopped. -/
def Fed (a a' rest rest' : Bytes) (p p' : HttpRequestParser) : Prop :=
  (∃ x x', Reading a a' x x' rest rest' ∧ p = feedLoop (start x) ∧ p' = feedLoop (start x')) ∨
    (p.state = .complete ∨ p.state = .error) ∧ p.Alike p'

theorem Fed.feed {a a' data data' rest rest' : Bytes} {p p' : HttpRequestParser}
    (hrecased : Recased a a') (hnames : DistinctNames a)
    (h : Fed a a' (data ++ rest) (data' ++ rest') p p') (hdata : data.length = data'.length) :
    Fed a a' rest rest' (p.feed data) (p'.feed data') := by
  have hstopped {p p' : HttpRequestParser} (hp : p.state = .complete ∨ p.state = .error)
      (halike : p.Alike p') : Fed a a' rest rest' (p.feed data) (p'.feed data') := by
    rw [HttpRequestParser.feed, HttpRequestParser.feed, if_pos hp, if_pos (halike.state ▸ hp)]
    exact .inr ⟨hp, halike⟩
  rcases h with ⟨x, x', hreading, rfl, rfl⟩ | ⟨hp, halike⟩
  · by_cases hp : (feedLoop (start x)).state = .complete ∨ (feedLoop (start x)).state = .error
    · exact hstopped hp (hreading.alike hrecased hnames).1
    · rcases hreading.feed hrecased hnames hdata (not_or.mp hp) with
        ⟨hnext, hfeed, hfeed'⟩ | ⟨herror, halike⟩
      · exact .inl ⟨_, _, hnext, hfeed, hfeed'⟩
      · exact .inr ⟨.inr herror, halike⟩
  · exact hstopped hp halike

/-- **The parser frames the two strings in the same way**, in whatever pieces they come. -/
theorem received_alike {a a' rest rest' : Bytes} (hrecased : Recased a a')
    (hnames : DistinctNames a) {pieces pieces' : List Bytes}
    (hpieces : List.Forall₂ (fun data data' => data.length = data'.length) pieces pieces')
    (ha : a = pieces.flatten ++ rest) (ha' : a' = pieces'.flatten ++ rest') :
    (received pieces).Alike (received pieces') := by
  have hrun {p p' : HttpRequestParser}
      (h : Fed a a' (pieces.flatten ++ rest) (pieces'.flatten ++ rest') p p') :
      Fed a a' rest rest' (pieces.foldl (fun p data => p.feed data) p)
        (pieces'.foldl (fun p data => p.feed data) p') := by
    clear ha ha'
    induction hpieces generalizing p p' with
    | nil => exact h
    | cons hdata _ ih =>
      rw [List.flatten_cons, List.flatten_cons, List.append_assoc, List.append_assoc] at h
      exact ih (h.feed hrecased hnames hdata)
  have hstart : {} = feedLoop (start []) := (feedLoop_short rfl).symm
  rcases hrun (.inl ⟨[], [], ha ▸ ha' ▸ .start a a', hstart, hstart⟩) with
    ⟨x, x', hreading, hp, hp'⟩ | ⟨-, halike⟩
  · rw [received, received, hp, hp']
    exact (hreading.alike hrecased hnames).1
  · exact halike

end HttpRequestParser
end NeuStack
