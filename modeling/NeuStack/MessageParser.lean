import NeuStack.HttpFraming

/-! # What the two parsers share

`HttpRequestParser` and `HttpResponseParser` make the same rounds over their common base;
they differ in the first line, in where they keep the headers and the body, and in what
they check between the two.  A `MessageParser` is what is particular to one of them,
with the laws that make its loop resumable (`MessageParser.resumable`).
-/
namespace NeuStack
open HttpParser (parseHeaders)

structure MessageParser (σ : Type) where
  base : σ → HttpParser
  headers : σ → HttpHeaders
  firstLine : σ → Option σ
  withHeaders : HttpHeaders → HttpParser → σ → σ
  check : σ → Bool × σ
  withBody : Bytes → HttpParser → σ → σ
  /-- The parser with more behind its input. -/
  more : Bytes → σ → σ
  more_nil : ∀ p, more [] p = p
  more_more : ∀ a b p, more b (more a p) = more (a ++ b) p
  base_more : ∀ b p, base (more b p) = (base p).more b
  headers_more : ∀ b p, headers (more b p) = headers p
  firstLine_more : ∀ {p q} b, firstLine p = some q → firstLine (more b p) = some (more b q)
  firstLine_state : ∀ {p q}, firstLine p = some q →
    (base q).state = .headers ∨ (base q).state = .error
  base_withHeaders : ∀ headers q p, base (withHeaders headers q p) = q
  headers_withHeaders : ∀ hs q p, headers (withHeaders hs q p) = hs
  withHeaders_more : ∀ headers q p b,
    more b (withHeaders headers q p) = withHeaders headers (q.more b) (more b p)
  withHeaders_twice : ∀ headers headers' q q' p,
    withHeaders headers' q' (withHeaders headers q p) = withHeaders headers' q' p
  check_more : ∀ b p, check (more b p) = ((check p).1, more b (check p).2)
  check_cases : ∀ p, (check p).1 = false ∧ (base (check p).2).state = .error ∨
    (check p).1 = true ∧ base (check p).2 = base p
  base_withBody : ∀ body q p, base (withBody body q p) = q
  withBody_more : ∀ body q p b,
    more b (withBody body q p) = withBody body (q.more b) (more b p)

namespace MessageParser
variable {σ : Type} (m : MessageParser σ) {p q : σ}

/-- One pass of the loop in `feed`. -/
def round (p : σ) : Bool × σ :=
  match (m.base p).state with
  | .complete | .error => (false, p)
  | .firstLine =>
    match m.firstLine p with
    | none => (false, p)
    | some p => (true, p)
  | .headers =>
    let (ended, headers, q) :=
      parseHeaders ((m.base p).buffer.length + 1) (m.headers p) (m.base p)
    let p := m.withHeaders headers q p
    if ended then m.check p else (false, p)
  | .body =>
    match (m.base p).parseBody with
    | none => (false, p)
    | some (body, q) => (true, m.withBody body q p)

theorem round_stopped (h : (m.base p).state = .complete ∨ (m.base p).state = .error) :
    m.round p = (false, p) := by
  rcases h with h | h <;> rw [round, h]

theorem round_firstLine (h : (m.base p).state = .firstLine) :
    m.round p = match m.firstLine p with
      | none => (false, p)
      | some p => (true, p) := by
  rw [round, h]

theorem round_headers {ended : Bool} {headers : HttpHeaders} {q : HttpParser}
    (h : (m.base p).state = .headers)
    (hparse : parseHeaders ((m.base p).buffer.length + 1) (m.headers p) (m.base p) =
      (ended, headers, q)) :
    m.round p =
      if ended then m.check (m.withHeaders headers q p) else (false, m.withHeaders headers q p) := by
  rw [round, h]
  simp only [hparse]

theorem round_body (h : (m.base p).state = .body) :
    m.round p = match (m.base p).parseBody with
      | none => (false, p)
      | some (body, q) => (true, m.withBody body q p) := by
  rw [round, h]

/-- A round gets nearer to the end of the message, or it stops there or with an error. -/
theorem round_state {goes : Bool} (h : m.round p = (goes, q)) :
    if goes then (m.base q).state.partsLeft < (m.base p).state.partsLeft
    else (m.base q).state = .error ∨ (m.base q).state = (m.base p).state := by
  cases hstate : (m.base p).state with
  | firstLine =>
    rw [m.round_firstLine hstate] at h
    cases hparse : m.firstLine p with
    | none =>
      rw [hparse] at h
      cases h
      exact Or.inr hstate
    | some q' =>
      rw [hparse] at h
      cases h
      rcases m.firstLine_state hparse with hq | hq <;> rw [hq] <;> decide
  | headers =>
    rcases hparse : parseHeaders ((m.base p).buffer.length + 1) (m.headers p) (m.base p) with
      ⟨ended, headers, q'⟩
    have hstate' := HttpParser.parseHeaders_state hparse (Nat.lt_succ_self _)
    rw [m.round_headers hstate hparse] at h
    cases ended with
    | false =>
      cases h
      rw [m.base_withHeaders]
      exact Or.inr (hstate'.trans hstate)
    | true =>
      rw [if_pos rfl] at h
      rcases m.check_cases (m.withHeaders headers q' p) with ⟨hgoes, hq⟩ | ⟨hgoes, hq⟩
      · rw [h] at hgoes hq
        cases hgoes
        exact Or.inl hq
      · rw [h] at hgoes hq
        cases hgoes
        rw [if_pos rfl, hq, m.base_withHeaders]
        rcases hstate' with hq' | hq' | hq' <;> rw [hq'] <;> decide
  | body =>
    rw [m.round_body hstate] at h
    cases hparse : (m.base p).parseBody with
    | none =>
      rw [hparse] at h
      cases h
      exact Or.inr hstate
    | some pair =>
      obtain ⟨body, q'⟩ := pair
      rw [hparse] at h
      cases h
      rw [if_pos rfl, m.base_withBody, HttpParser.parseBody_state hparse]
      decide
  | complete | error =>
    rw [m.round_stopped (by simp only [hstate, reduceCtorEq, or_true, true_or])] at h
    cases h
    exact Or.inr hstate

theorem state_more (b : Bytes) (p : σ) : (m.base (m.more b p)).state = (m.base p).state := by
  rw [m.base_more]
  rfl

/-- What `parse_headers` makes of the parser with more behind its input. -/
theorem parseHeaders_more {ended : Bool} {headers : HttpHeaders} {q : HttpParser}
    (h : parseHeaders ((m.base p).buffer.length + 1) (m.headers p) (m.base p) = (ended, headers, q))
    (b : Bytes) :
    parseHeaders ((m.base (m.more b p)).buffer.length + 1) (m.headers (m.more b p))
        (m.base (m.more b p)) =
      if ended then (true, headers, q.more b)
      else parseHeaders ((q.more b).buffer.length + 1) headers (q.more b) := by
  rw [m.base_more, m.headers_more]
  exact HttpParser.parseHeaders_more h (Nat.lt_succ_self _) b (Nat.lt_succ_self _)
    (Nat.lt_succ_self _)

theorem round_goes (h : m.round p = (true, q)) (b : Bytes) :
    m.round (m.more b p) = (true, m.more b q) := by
  cases hstate : (m.base p).state with
  | firstLine =>
    rw [m.round_firstLine hstate] at h
    rw [m.round_firstLine ((m.state_more b p).trans hstate)]
    cases hparse : m.firstLine p with
    | none =>
      rw [hparse] at h
      cases h
    | some q' =>
      rw [hparse] at h
      cases h
      rw [m.firstLine_more b hparse]
  | headers =>
    rcases hparse : parseHeaders ((m.base p).buffer.length + 1) (m.headers p) (m.base p) with
      ⟨ended, headers, q'⟩
    rw [m.round_headers hstate hparse] at h
    cases ended with
    | false => cases h
    | true =>
      rw [if_pos rfl] at h
      rw [m.round_headers ((m.state_more b p).trans hstate) (m.parseHeaders_more hparse b),
        if_pos rfl, ← m.withHeaders_more, m.check_more, h]
  | body =>
    rw [m.round_body hstate] at h
    rw [m.round_body ((m.state_more b p).trans hstate)]
    cases hparse : (m.base p).parseBody with
    | none =>
      rw [hparse] at h
      cases h
    | some pair =>
      obtain ⟨body, q'⟩ := pair
      rw [hparse] at h
      cases h
      rw [m.base_more, HttpParser.parseBody_more hparse b, m.withBody_more]
  | complete | error =>
    rw [m.round_stopped (by simp only [hstate, reduceCtorEq, or_true, true_or])] at h
    cases h

theorem round_waits (h : m.round p = (false, q)) (b : Bytes) :
    m.round (m.more b p) = m.round (m.more b q) := by
  cases hstate : (m.base p).state with
  | firstLine =>
    rw [m.round_firstLine hstate] at h
    cases hparse : m.firstLine p with
    | none =>
      rw [hparse] at h
      cases h
      rfl
    | some q' =>
      rw [hparse] at h
      cases h
  | headers =>
    rcases hparse : parseHeaders ((m.base p).buffer.length + 1) (m.headers p) (m.base p) with
      ⟨ended, headers, q'⟩
    have hmore := m.parseHeaders_more hparse b
    rw [m.round_headers hstate hparse] at h
    cases ended with
    | false =>
      cases h
      have hstate' := HttpParser.parseHeaders_state hparse (Nat.lt_succ_self _)
      rw [if_neg Bool.false_ne_true] at hmore
      rcases hlast : parseHeaders ((q'.more b).buffer.length + 1) headers (q'.more b) with
        ⟨ended, headers', q''⟩
      -- Both sides go on from the headers that have been read.
      have hq : (m.base (m.withHeaders headers (q'.more b) (m.more b p))).state = .headers := by
        rw [m.base_withHeaders]
        exact hstate'.trans hstate
      rw [m.withHeaders_more, m.round_headers ((m.state_more b p).trans hstate) (hmore.trans hlast),
        m.round_headers hq (by rw [m.base_withHeaders, m.headers_withHeaders, hlast]),
        m.withHeaders_twice]
    | true =>
      rw [if_pos rfl] at h
      rw [m.round_headers ((m.state_more b p).trans hstate) hmore, if_pos rfl,
        ← m.withHeaders_more, m.check_more]
      rcases m.check_cases (m.withHeaders headers q' p) with ⟨-, hq⟩ | ⟨hgoes, -⟩
      · rw [h] at hq ⊢
        exact (m.round_stopped (Or.inr ((m.state_more b q).trans hq))).symm
      · rw [h] at hgoes
        cases hgoes
  | body =>
    rw [m.round_body hstate] at h
    cases hparse : (m.base p).parseBody with
    | none =>
      rw [hparse] at h
      cases h
      rfl
    | some pair =>
      rw [hparse] at h
      cases h
  | complete | error =>
    rw [m.round_stopped (by simp only [hstate, reduceCtorEq, or_true, true_or])] at h
    cases h
    rfl

/-- **The loop of a message parser can be resumed.** -/
theorem resumable : Resumable m.round m.more (fun p => (m.base p).state.partsLeft) where
  more_nil := m.more_nil
  more_more := m.more_more
  rank_more b p := congrArg _ (m.state_more b p)
  rank_goes h := m.round_state h
  rank_waits h := by
    rcases m.round_state h with hq | hq
    · rw [hq]
      exact Nat.zero_le _
    · exact Nat.le_of_eq (congrArg _ hq)
  goes b h := m.round_goes h b
  waits b h := m.round_waits h b

theorem run_stopped (h : (m.base p).state = .complete ∨ (m.base p).state = .error) (n : Nat) :
    Rounds.run m.round n p = p := by
  cases n with
  | zero => rfl
  | succ n => exact Rounds.run_of_waits (m.round_stopped h) n

end MessageParser
end NeuStack
