import NeuStack.HttpParser

/-! # How the parsers read a message

A message is a first line, header lines, an empty line, and a body that is as long as
the headers say.  `HttpParser.parseHeaders_read` says what `parse_headers` makes of a
buffer, `HttpParser.parseHeaders_lines` what it makes of well-formed header lines, and
`HttpParser.parseHeaders_more` that what it has used does not have to be there when
more comes.
-/
namespace NeuStack

/-- A header line, without its end: a name, a colon and a value. -/
structure HeaderField where
  key : Bytes
  value : Bytes
  no_colon : 58 ∉ key
  one_line : HttpParser.cutLine (key ++ 58 :: value) = none

namespace HeaderField

def line (f : HeaderField) : Bytes := f.key ++ 58 :: f.value

/-- The bytes of header lines. -/
def lines (fields : List HeaderField) : Bytes := fields.flatMap fun f => f.line ++ crlf

/-- The headers that they are. -/
def collect (headers : HttpHeaders) (fields : List HeaderField) : HttpHeaders :=
  fields.foldl (fun headers f => headers.add f.key (HttpParser.trim f.value)) headers

theorem lines_cons (f : HeaderField) (fields : List HeaderField) (rest : Bytes) :
    lines (f :: fields) ++ rest = f.line ++ crlf ++ (lines fields ++ rest) := by
  rw [lines, List.flatMap_cons, List.append_assoc]
  rfl

end HeaderField

/-- How many parts of the message are still to come. -/
def HttpState.partsLeft : HttpState → Nat
  | .firstLine => 3
  | .headers => 2
  | .body => 1
  | .complete | .error => 0

namespace HttpParser
open HeaderField (lines collect)
variable {headers : HttpHeaders} {p : HttpParser} {line rest : Bytes} {n m : Nat}

/-! ## Lines -/

theorem cutLine_eq_some {buffer : Bytes} (h : cutLine buffer = some (line, rest)) :
    buffer = line ++ crlf ++ rest := by
  rw [Delimited.cutPair_eq_some h, List.append_assoc]
  rfl

theorem cutLine_line (h : cutLine line = none) (rest : Bytes) :
    cutLine (line ++ crlf ++ rest) = some (line, rest) := by
  rw [List.append_assoc]
  exact Delimited.cutPair_of (by decide) h rest

theorem cutLine_append {buffer : Bytes} (h : cutLine buffer = some (line, rest)) (b : Bytes) :
    cutLine (buffer ++ b) = some (line, rest ++ b) :=
  Delimited.cutPair_append h b

theorem length_of_cutLine {buffer : Bytes} (h : cutLine buffer = some (line, rest)) :
    rest.length < buffer.length := by
  have hlength := Delimited.length_of_cutPair h
  omega

/-! ## One round of `parse_headers` -/

theorem parseHeaders_wait (h : cutLine p.buffer = none) :
    parseHeaders (n + 1) headers p = (false, headers, p) := by
  rw [parseHeaders, h]

theorem parseHeaders_end (h : cutLine p.buffer = some ([], rest)) :
    parseHeaders (n + 1) headers p =
      (true, headers, endHeaders headers { p with buffer := rest }) := by
  rw [parseHeaders, h]

theorem parseHeaders_bad (h : cutLine p.buffer = some (line, rest)) (hline : line ≠ [])
    (hcolon : Delimited.cutAt 58 line = none) :
    parseHeaders (n + 1) headers p =
      (true, headers, fail "Invalid header line" { p with buffer := rest }) := by
  cases line with
  | nil => exact absurd rfl hline
  | cons b line => simp only [parseHeaders, h, hcolon]

theorem parseHeaders_field {key value : Bytes} (h : cutLine p.buffer = some (line, rest))
    (hcolon : Delimited.cutAt 58 line = some (key, value)) :
    parseHeaders (n + 1) headers p =
      parseHeaders n (headers.add key (trim value)) { p with buffer := rest } := by
  cases line with
  | nil => cases hcolon
  | cons b line => simp only [parseHeaders, h, hcolon]

/-! ## All rounds -/

/-- What `parse_headers` can make of a buffer. -/
inductive HeadersRead (headers : HttpHeaders) (p : HttpParser) :
    Bool × HttpHeaders × HttpParser → Prop
  | waits (fields : List HeaderField) (rest : Bytes) (split : p.buffer = lines fields ++ rest)
      (no_line : cutLine rest = none) :
      HeadersRead headers p (false, collect headers fields, { p with buffer := rest })
  | ends (fields : List HeaderField) (rest : Bytes)
      (split : p.buffer = lines fields ++ (crlf ++ rest)) :
      HeadersRead headers p
        (true, collect headers fields,
          endHeaders (collect headers fields) { p with buffer := rest })
  | fails (fields : List HeaderField) (rest : Bytes) :
      HeadersRead headers p
        (true, collect headers fields, fail "Invalid header line" { p with buffer := rest })

/-- **What it reads is header lines.** -/
theorem parseHeaders_read (h : p.buffer.length < n) :
    HeadersRead headers p (parseHeaders n headers p) := by
  induction n generalizing headers p with
  | zero => exact absurd h (Nat.not_lt_zero _)
  | succ n ih =>
    cases hcut : cutLine p.buffer with
    | none =>
      rw [parseHeaders_wait hcut]
      exact .waits [] p.buffer rfl hcut
    | some cut =>
      obtain ⟨line, rest⟩ := cut
      have hsplit := cutLine_eq_some hcut
      have hlength := length_of_cutLine hcut
      by_cases hline : line = []
      · subst hline
        rw [parseHeaders_end hcut]
        exact .ends [] rest hsplit
      cases hcolon : Delimited.cutAt 58 line with
      | none =>
        rw [parseHeaders_bad hcut hline hcolon]
        exact .fails [] rest
      | some pair =>
        obtain ⟨key, value⟩ := pair
        obtain ⟨heq, hkey⟩ := Delimited.cutAt_eq_some hcolon
        let f : HeaderField := ⟨key, value, hkey, heq ▸ Delimited.cutPair_before hcut⟩
        have hf : f.line = line := heq.symm
        rw [parseHeaders_field hcut hcolon]
        have hread : HeadersRead (headers.add key (trim value)) { p with buffer := rest } _ :=
          ih (by dsimp only; omega)
        generalize parseHeaders n _ _ = result at hread ⊢
        cases hread with
        | waits fields rest' hrest hnone =>
          exact .waits (f :: fields) rest' (by rw [HeaderField.lines_cons, hf, ← hrest, hsplit]) hnone
        | ends fields rest' hrest =>
          exact .ends (f :: fields) rest' (by rw [HeaderField.lines_cons, hf, ← hrest, hsplit])
        | fails fields rest' => exact .fails (f :: fields) rest'

/-- **Header lines are read.** -/
theorem parseHeaders_lines (fields : List HeaderField)
    (h : p.buffer = lines fields ++ (crlf ++ rest)) (hn : p.buffer.length < n) :
    parseHeaders n headers p =
      (true, collect headers fields,
        endHeaders (collect headers fields) { p with buffer := rest }) := by
  induction fields generalizing headers p n with
  | nil =>
    cases n with
    | zero => exact absurd hn (Nat.not_lt_zero _)
    | succ n =>
      have hcut : cutLine p.buffer = some ([], rest) := by
        rw [h]
        exact cutLine_line (show cutLine [] = none from rfl) rest
      exact parseHeaders_end hcut
  | cons f fields ih =>
    cases n with
    | zero => exact absurd hn (Nat.not_lt_zero _)
    | succ n =>
      rw [HeaderField.lines_cons] at h
      have hcut := h ▸ cutLine_line f.one_line (lines fields ++ (crlf ++ rest))
      have hlength := length_of_cutLine hcut
      rw [parseHeaders_field hcut (Delimited.cutAt_of f.no_colon f.value)]
      exact ih rfl (by dsimp only; omega)

/-! ## Resuming -/

/-- With `b` behind the input. -/
def more (b : Bytes) (p : HttpParser) : HttpParser := { p with buffer := p.buffer ++ b }

theorem parseHeaders_fuel (hn : p.buffer.length < n) (hm : p.buffer.length < m) :
    parseHeaders n headers p = parseHeaders m headers p := by
  induction n generalizing headers p m with
  | zero => exact absurd hn (Nat.not_lt_zero _)
  | succ n ih =>
    cases m with
    | zero => exact absurd hm (Nat.not_lt_zero _)
    | succ m =>
      cases hcut : cutLine p.buffer with
      | none => rw [parseHeaders_wait hcut, parseHeaders_wait hcut]
      | some cut =>
        obtain ⟨line, rest⟩ := cut
        have hlength := length_of_cutLine hcut
        by_cases hline : line = []
        · subst hline
          rw [parseHeaders_end hcut, parseHeaders_end hcut]
        cases hcolon : Delimited.cutAt 58 line with
        | none => rw [parseHeaders_bad hcut hline hcolon, parseHeaders_bad hcut hline hcolon]
        | some pair =>
          rw [parseHeaders_field hcut hcolon, parseHeaders_field hcut hcolon]
          exact ih (by dsimp only; omega) (by dsimp only; omega)

/-- **What `parse_headers` has used does not have to be there when more comes.** -/
theorem parseHeaders_more {ended : Bool} {headers' : HttpHeaders} {q : HttpParser} {k : Nat}
    (h : parseHeaders n headers p = (ended, headers', q)) (hn : p.buffer.length < n) (b : Bytes)
    (hm : (p.more b).buffer.length < m) (hk : (q.more b).buffer.length < k) :
    parseHeaders m headers (p.more b) =
      if ended then (true, headers', q.more b) else parseHeaders k headers' (q.more b) := by
  induction n generalizing headers p m with
  | zero => exact absurd hn (Nat.not_lt_zero _)
  | succ n ih =>
    cases m with
    | zero => exact absurd hm (Nat.not_lt_zero _)
    | succ m =>
      cases hcut : cutLine p.buffer with
      | none =>
        cases (parseHeaders_wait hcut).symm.trans h
        exact parseHeaders_fuel hm hk
      | some cut =>
        obtain ⟨line, rest⟩ := cut
        have hmore : cutLine (p.more b).buffer = some (line, rest ++ b) := cutLine_append hcut b
        have hlength := length_of_cutLine hcut
        have hlength' := length_of_cutLine hmore
        by_cases hline : line = []
        · subst hline
          cases (parseHeaders_end hcut).symm.trans h
          exact parseHeaders_end hmore
        cases hcolon : Delimited.cutAt 58 line with
        | none =>
          cases (parseHeaders_bad hcut hline hcolon).symm.trans h
          exact parseHeaders_bad hmore hline hcolon
        | some pair =>
          rw [parseHeaders_field hmore hcolon]
          exact ih ((parseHeaders_field hcut hcolon).symm.trans h) (by dsimp only; omega)
            (by show (rest ++ b).length < m; omega)

theorem endHeaders_state (headers : HttpHeaders) (p : HttpParser) :
    (endHeaders headers p).state = .body ∨ (endHeaders headers p).state = .complete := by
  rw [endHeaders]
  split
  · exact Or.inl rfl
  · exact Or.inr rfl

/-- The headers are behind a parser that goes on from them, and not behind one that waits. -/
theorem parseHeaders_state {ended : Bool} {headers' : HttpHeaders} {q : HttpParser}
    (h : parseHeaders n headers p = (ended, headers', q)) (hn : p.buffer.length < n) :
    if ended then q.state = .body ∨ q.state = .complete ∨ q.state = .error
    else q.state = p.state := by
  have hread : HeadersRead headers p _ := parseHeaders_read hn
  rw [h] at hread
  cases hread with
  | waits fields rest split no_line => rfl
  | ends fields rest split =>
    rw [if_pos rfl]
    rcases endHeaders_state (collect headers fields) { p with buffer := rest } with h | h
    · exact Or.inl h
    · exact Or.inr (Or.inl h)
  | fails fields rest => exact Or.inr (Or.inr rfl)

theorem parseBody_state {body : Bytes} {q : HttpParser} (h : p.parseBody = some (body, q)) :
    q.state = .complete := by
  rw [parseBody] at h
  split at h
  · cases h
    rfl
  · cases h

theorem parseBody_more {body : Bytes} {q : HttpParser} (h : p.parseBody = some (body, q))
    (b : Bytes) : (p.more b).parseBody = some (body, q.more b) := by
  rw [parseBody] at h
  split at h
  · rename_i hle
    cases h
    have hle' : (p.more b).contentLength ≤ (p.more b).buffer.length := by
      show p.contentLength ≤ (p.buffer ++ b).length
      rw [List.length_append]
      omega
    rw [parseBody, if_pos hle']
    simp only [more, List.take_append_of_le_length hle, List.drop_append_of_le_length hle]
  · cases h

end HttpParser
end NeuStack
