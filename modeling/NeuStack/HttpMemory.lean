import NeuStack.HttpSegmentation

/-! # The memory of a parser

The limit on the buffer is no limit on a message: complete header lines leave the buffer on every
`feed`, so a peer that sends one after the other is never over it (`received_endless`), and the
parser keeps them all.  A parser that is not fed beyond the limit retains no more than that and one
piece (`memory_bounded`).
-/
namespace NeuStack
open HttpParser (parseHeaders maxBufferSize)

/-- The largest piece that is fed. -/
def maxPiece : Nat := 64 * 1024

namespace MessageParser
variable {σ : Type} (m : MessageParser σ) (received : List Bytes → σ) (pieces : List Bytes)

/-- Whether `feed` ignores what comes. -/
def Stopped (p : σ) : Prop := (m.base p).state = .complete ∨ (m.base p).state = .error

/-- **Not fed beyond the limit**: a parser that has not stopped gets another piece only if it was
fed at most `MAX_BUFFER_SIZE` bytes before. -/
def Limited : Prop :=
  ∀ before data, before ++ [data] <+: pieces → ¬ m.Stopped (received before) →
    before.flatten.length ≤ maxBufferSize

/-- **Memory is bounded** over the whole run: the limit and one piece is the most that is retained,
and the most that a parser takes without an end of the message or an error. -/
structure MemoryBounded (w : m.Weighing) : Prop where
  retained : ∀ before, before <+: pieces → w.retained (received before) ≤ maxBufferSize + maxPiece
  cutOff : ∀ before, before <+: pieces → ¬ m.Stopped (received before) →
    before.flatten.length ≤ maxBufferSize + maxPiece

variable {m pieces}

/-- A message that fits is not beyond the limit. -/
theorem limited_of_le (received : List Bytes → σ) (h : pieces.flatten.length ≤ maxBufferSize) :
    m.Limited received pieces := by
  rintro before data ⟨behind, rfl⟩ -
  rw [List.append_assoc, List.flatten_append, List.length_append] at h
  omega

theorem feed_stopped {p : σ} (h : m.Stopped p) (tooLarge : σ → σ) (data : Bytes) :
    m.feed tooLarge data p = p :=
  if_pos h

theorem Weighing.bounded (w : m.Weighing) {tooLarge : σ → σ} {start : σ}
    (hlarge : ∀ p, w.retained (tooLarge p) = w.retained p) (hstart : w.retained start = 0)
    (hpieces : ∀ data ∈ pieces, data.length ≤ maxPiece)
    (h : m.Limited (m.fed tooLarge start) pieces) :
    m.MemoryBounded (m.fed tooLarge start) pieces w := by
  -- a piece that is taken comes within the limit; one that is not changes nothing
  have hlast : ∀ before data, before ++ [data] <+: pieces →
      ¬ m.Stopped (m.fed tooLarge start before) →
      (before ++ [data]).flatten.length ≤ maxBufferSize + maxPiece := by
    intro before data hfirst hgoes
    have hbefore := h before data hfirst hgoes
    have hdata := hpieces data (hfirst.subset (List.mem_append_right _ (List.mem_singleton_self _)))
    rw [List.flatten_append, List.flatten_singleton, List.length_append]
    omega
  constructor
  · intro before hfirst
    induction before using List.reverseRecOn with
    | nil =>
      show w.retained start ≤ _
      rw [hstart]
      exact Nat.zero_le _
    | append_singleton before data ih =>
      by_cases hstopped : m.Stopped (m.fed tooLarge start before)
      · rw [fed_snoc, feed_stopped hstopped]
        exact ih ((List.prefix_append _ _).trans hfirst)
      · have hfed := w.retained_fed_le hlarge start (before ++ [data])
        have hle := hlast before data hfirst hstopped
        omega
  · intro before hfirst hgoes
    induction before using List.reverseRecOn with
    | nil => exact Nat.zero_le _
    | append_singleton before data _ =>
      refine hlast before data hfirst fun hstopped => hgoes ?_
      rwa [fed_snoc, feed_stopped hstopped]

end MessageParser

/-- **The memory of both parsers is bounded** in every run that does not feed them beyond the
limit. -/
theorem memory_bounded {pieces : List Bytes} (hpieces : ∀ data ∈ pieces, data.length ≤ maxPiece) :
    (HttpRequestParser.message.Limited HttpRequestParser.received pieces →
      HttpRequestParser.message.MemoryBounded HttpRequestParser.received pieces
        HttpRequestParser.weighing) ∧
    (HttpResponseParser.message.Limited HttpResponseParser.received pieces →
      HttpResponseParser.message.MemoryBounded HttpResponseParser.received pieces
        HttpResponseParser.weighing) := by
  rw [funext HttpRequestParser.received_eq, funext HttpResponseParser.received_eq]
  exact ⟨HttpRequestParser.weighing.bounded (fun _ => rfl) rfl hpieces,
    HttpResponseParser.weighing.bounded (fun _ => rfl) rfl hpieces⟩

/-! ## Header lines without an end -/

theorem HttpParser.cutLine_of_not_mem {bytes : Bytes} (h : 13 ∉ bytes) :
    HttpParser.cutLine bytes = none := by
  cases hcut : HttpParser.cutLine bytes with
  | none => rfl
  | some cut =>
    have hsplit := Delimited.cutPair_eq_some hcut
    refine absurd ?_ h
    rw [hsplit]
    exact List.mem_append_right _ (List.mem_cons_self ..)

/-- A header line of `n` letters. -/
def longField (n : Nat) : HeaderField where
  key := [97]
  value := List.replicate n 97
  no_colon := by decide
  one_line := by
    refine HttpParser.cutLine_of_not_mem fun h => ?_
    rcases List.mem_append.mp h with h | h
    · exact absurd h (by decide)
    · rcases List.mem_cons.mp h with h | h
      · exact absurd h (by decide)
      · exact absurd (List.eq_of_mem_replicate h) (by decide)

theorem length_line (n : Nat) : ((longField n).line ++ crlf).length = n + 4 := by
  show (([97] ++ 58 :: List.replicate n 97) ++ [13, 10] : Bytes).length = _
  simp only [List.length_append, List.length_cons, List.length_nil, List.length_replicate]
  omega

/-- A value is at least added. -/
theorem HttpHeaders.le_weight_add (key value : Bytes) (headers : HttpHeaders) :
    headers.weight + value.length ≤ (headers.add key value).weight := by
  induction headers with
  | nil =>
    rw [add, weight_cons, List.map_singleton, List.sum_singleton]
    omega
  | cons entry rest ih =>
    obtain ⟨k, values⟩ := entry
    rw [add]
    split
    · rw [weight_cons, weight_cons, List.map_append, List.sum_append, List.map_singleton,
        List.sum_singleton]
      omega
    · rw [weight_cons, weight_cons]
      omega

namespace HttpRequestParser

/-- A request line, and `n` long header lines. -/
def endless (n : Nat) : List Bytes :=
  ascii "GET / HTTP/1.1\r\n" :: List.replicate n ((longField 65000).line ++ crlf)

/-- A parser in the middle of the headers, with nothing in its buffer. -/
def betweenHeaders (headers : HttpHeaders) : HttpRequestParser where
  state := .headers
  request := { method := .get, path := ascii "/", version := ascii "HTTP/1.1", headers }

/-- A header line that fits is taken, and its bytes leave the buffer. -/
theorem feed_line (f : HeaderField) (hfits : (f.line ++ crlf).length ≤ maxBufferSize)
    (headers : HttpHeaders) : (betweenHeaders headers).feed (f.line ++ crlf) =
      betweenHeaders (headers.add f.key (HttpParser.trim f.value)) := by
  let p : HttpRequestParser := (betweenHeaders headers).more (f.line ++ crlf)
  have hcut : HttpParser.cutLine p.buffer = some (f.line, []) := by
    have hline := HttpParser.cutLine_line f.one_line []
    rw [List.append_nil] at hline
    exact hline
  obtain ⟨n, hn⟩ : ∃ n, p.buffer.length = n + 1 :=
    Nat.exists_eq_add_one.mpr
      (Nat.lt_of_le_of_lt (Nat.zero_le _) (HttpParser.length_of_cutLine hcut))
  have hparse : parseHeaders (p.buffer.length + 1) headers p.toHttpParser =
      (false, headers.add f.key (HttpParser.trim f.value),
        { p.toHttpParser with buffer := [] }) := by
    rw [HttpParser.parseHeaders_field hcut (Delimited.cutAt_of f.no_colon f.value), hn]
    exact HttpParser.parseHeaders_wait rfl
  have hround := message.round_headers (p := p) rfl hparse
  rw [if_neg Bool.false_ne_true] at hround
  have hsize : ¬ maxBufferSize < (message.base p).buffer.length := Nat.not_lt.mpr hfits
  rw [feed_eq, MessageParser.feed, if_neg (by rintro (h | h) <;> cases h)]
  rw [show message.more _ _ = p from rfl, if_neg hsize]
  exact Rounds.run_of_waits hround 3

theorem trim_letters (n : Nat) : HttpParser.trim (List.replicate n 97) = List.replicate n 97 := by
  cases n with
  | zero => rfl
  | succ n => rfl

theorem received_endless (n : Nat) : ∃ headers, received (endless n) = betweenHeaders headers ∧
    65000 * n ≤ headers.weight := by
  induction n with
  | zero => exact ⟨[], by decide +kernel, Nat.le_refl _⟩
  | succ n ih =>
    obtain ⟨headers, hreceived, hweight⟩ := ih
    have hfits : ((longField 65000).line ++ crlf).length ≤ maxBufferSize := by
      rw [length_line]
      decide
    have hstep : received (endless (n + 1)) =
        (received (endless n)).feed ((longField 65000).line ++ crlf) := by
      rw [endless, List.replicate_succ', received, ← List.cons_append, List.foldl_concat]
      rfl
    rw [hreceived, feed_line _ hfits] at hstep
    refine ⟨_, hstep, ?_⟩
    have hadd := headers.le_weight_add [97] (List.replicate 65000 97)
    rw [List.length_replicate] at hadd
    show _ ≤ HttpHeaders.weight (headers.add [97] (HttpParser.trim (List.replicate 65000 97)))
    rw [trim_letters]
    omega

/-- **Nothing cuts off** a peer that sends header lines, and what is retained has no bound. -/
theorem memory_unbounded : (∀ n, (∀ data ∈ endless n, data.length ≤ maxPiece) ∧
      (received (endless n)).state = .headers ∧
      65000 * n ≤ weighing.retained (received (endless n))) ∧
    maxBufferSize + maxPiece < weighing.retained (received (endless 18)) := by
  have hall : ∀ n, (∀ data ∈ endless n, data.length ≤ maxPiece) ∧
      (received (endless n)).state = .headers ∧
      65000 * n ≤ weighing.retained (received (endless n)) := by
    intro n
    obtain ⟨headers, hreceived, hweight⟩ := received_endless n
    rw [hreceived]
    refine ⟨fun data hdata => ?_, rfl, Nat.le_trans hweight ?_⟩
    · rcases List.mem_cons.mp hdata with rfl | hdata
      · decide
      · rw [List.eq_of_mem_replicate hdata, length_line]
        decide
    · show headers.weight ≤ 0 + headers.weight + _
      omega
  exact ⟨hall, Nat.lt_of_lt_of_le (by decide) (hall 18).2.2⟩

end HttpRequestParser

/-- A request in two pieces. -/
theorem memory_bounded_two :
    HttpRequestParser.message.MemoryBounded HttpRequestParser.received
        [ascii "GET / HTTP/1.1\r\n", ascii "\r\n"] HttpRequestParser.weighing ∧
      HttpResponseParser.message.MemoryBounded HttpResponseParser.received
        [ascii "GET / HTTP/1.1\r\n", ascii "\r\n"] HttpResponseParser.weighing := by
  obtain ⟨hrequest, hresponse⟩ :=
    @memory_bounded [ascii "GET / HTTP/1.1\r\n", ascii "\r\n"] (by decide)
  exact ⟨hrequest (MessageParser.limited_of_le _ (by decide)),
    hresponse (MessageParser.limited_of_le _ (by decide))⟩

end NeuStack
