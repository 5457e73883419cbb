import NeuStack.HttpDelivery

/-! # Responses are delivered exactly

However little `send` takes, what the connection accepted is, at every moment, what was started, up
to what is still to be sent (`Delivery.Exact`).  Between the start of a response and that of the
next one the bytes are a prefix of the first (`HttpServer.delivered_run`).
-/
namespace NeuStack

/-- The bytes of responses, one behind the other. -/
def bytesOf (rs : List StartedResponse) : Bytes := rs.flatMap StartedResponse.bytes

theorem bytesOf_append (rs rs' : List StartedResponse) :
    bytesOf (rs ++ rs') = bytesOf rs ++ bytesOf rs' :=
  List.flatMap_append

theorem bytesOf_singleton (r : StartedResponse) : bytesOf [r] = r.bytes :=
  List.append_nil r.bytes

theorem accepted_split (log : List HttpEvent) {j k : Nat} (h : j ≤ k) :
    accepted (log.take j) ++ accepted ((log.take k).drop j) = accepted (log.take k) := by
  have htake : (log.take k).take j = log.take j := by rw [List.take_take, Nat.min_eq_left h]
  rw [← accepted_append, ← htake, List.take_append_drop]

theorem accepted_take_mono (log : List HttpEvent) {j k : Nat} (h : j ≤ k) :
    accepted (log.take j) <+: accepted (log.take k) :=
  ⟨_, accepted_split log h⟩

theorem accepted_take_of_log (log : List HttpEvent) (k : Nat) :
    accepted (log.take k) <+: accepted log :=
  ⟨accepted (log.drop k), by rw [← accepted_append, List.take_append_drop]⟩

/-- What had been accepted of a response when the log was `k` events long. -/
def StartedResponse.acceptedBy (log : List HttpEvent) (k : Nat) (r : StartedResponse) : Bytes :=
  accepted ((log.take k).drop r.position)

/-- The response to the request that is dispatched at `k`. -/
def HttpServer.answerAt (s : HttpServer) (u : Surroundings) (log : List HttpEvent) (k : Nat)
    (request : HttpRequest) : Bytes :=
  s.answer u { log := log.take k : HttpConnection }.dispatched.length request

/-- **The responses are delivered one after the other**: each request starts its response; at every
moment up to the start of the next one, what was accepted of a response is a prefix of it; and it is
all of it when the next one is started, or nothing is pending. -/
structure DeliveredInOrder (s : HttpServer) (u : Surroundings) (log : List HttpEvent)
    (started : List StartedResponse) (idle : Prop) : Prop where
  answered : ∀ k request, log[k]? = some (.dispatch request) →
    ⟨k, s.answerAt u log k request⟩ ∈ started
  only : accepted log <+: bytesOf started
  each : ∀ before r after, started = before ++ r :: after → ∀ k,
    (∀ next ∈ after.head?, k ≤ next.position) → r.acceptedBy log k <+: r.bytes
  followed : ∀ before r next after, started = before ++ r :: next :: after →
    r.acceptedBy log next.position = r.bytes
  last : ∀ before r, started = before ++ [r] → idle → r.acceptedBy log log.length = r.bytes

namespace Delivery
variable {s : HttpServer} {u : Surroundings} {d d' : Delivery}

/-- What was accepted, and what is still to be sent, is what was started, and a response starts
where the bytes before it have been accepted. -/
structure Exact (s : HttpServer) (u : Surroundings) (d : Delivery) : Prop where
  answered : ∀ k request, d.log[k]? = some (.dispatch request) →
    ⟨k, s.answerAt u d.log k request⟩ ∈ d.started
  total : accepted d.log ++ d.unsent = bytesOf d.started
  ordered : d.started.Pairwise (·.position ≤ ·.position)
  within : ∀ r ∈ d.started, r.position ≤ d.log.length
  upTo : ∀ before r after, d.started = before ++ r :: after →
    accepted (d.log.take r.position) = bytesOf before

theorem getElem?_concat {log : List HttpEvent} {x y : HttpEvent} {k : Nat}
    (h : (log ++ [x])[k]? = some y) :
    k < log.length ∧ log[k]? = some y ∨ k = log.length ∧ x = y := by
  rcases Nat.lt_or_ge k log.length with hlt | hge
  · exact .inl ⟨hlt, by rwa [List.getElem?_append_left hlt] at h⟩
  · rw [List.getElem?_append_right hge, List.getElem?_singleton] at h
    split at h
    · exact .inr ⟨by omega, Option.some.inj h⟩
    · cases h

theorem answerAt_append {log : List HttpEvent} {k : Nat} (h : k < log.length)
    (events : List HttpEvent) (request : HttpRequest) :
    s.answerAt u (log ++ events) k request = s.answerAt u log k request := by
  rw [HttpServer.answerAt, List.take_append_of_le_length (Nat.le_of_lt h), HttpServer.answerAt]

namespace Exact

theorem send (h : Exact s u d) (x : HttpEvent) {rest : Bytes} (hrest : d.unsent = x.taken ++ rest)
    (hx : ∀ request, x ≠ .dispatch request) :
    Exact s u { d with log := d.log ++ [x], unsent := rest } where
  answered k request hk := by
    rcases getElem?_concat hk with ⟨hlt, hk⟩ | ⟨-, hx'⟩
    · rw [answerAt_append hlt]
      exact h.answered k request hk
    · exact absurd hx' (hx request)
  total := by
    have haccepted : accepted [x] = x.taken := List.append_nil x.taken
    rw [← h.total, hrest, accepted_append, haccepted, List.append_assoc]
  ordered := h.ordered
  within r hr := Nat.le_trans (h.within r hr) (by rw [List.length_append]; omega)
  upTo before r after hstarted := by
    have hr : r ∈ d.started := hstarted ▸ List.mem_append_right _ List.mem_cons_self
    rw [List.take_append_of_le_length (h.within r hr)]
    exact h.upTo before r after hstarted

/-- A response is started, with a request that is noted or without one. -/
theorem start (h : Exact s u d) (bytes : Bytes) (hunsent : d.unsent = []) (x : List HttpEvent)
    (hx : x = [] ∨ ∃ request, x = [.dispatch request] ∧ bytes = d.answer s u request) :
    Exact s u ⟨d.log ++ x, d.started ++ [⟨d.log.length, bytes⟩], bytes⟩ where
  answered k request hk := by
    rcases hx with rfl | ⟨request', rfl, rfl⟩
    · rw [List.append_nil] at hk ⊢
      exact List.mem_append_left _ (h.answered k request hk)
    · rcases getElem?_concat hk with ⟨hlt, hk⟩ | ⟨rfl, hrequest⟩
      · rw [answerAt_append hlt]
        exact List.mem_append_left _ (h.answered k request hk)
      · cases hrequest
        rw [HttpServer.answerAt, List.take_left]
        exact List.mem_append_right _ (List.mem_singleton_self _)
  total := by
    have hquiet : accepted x = [] := by
      rcases hx with rfl | ⟨request, rfl, -⟩ <;> rfl
    have htotal := h.total
    rw [hunsent, List.append_nil] at htotal
    rw [accepted_append, hquiet, bytesOf_append, bytesOf_singleton, ← htotal, List.append_nil]
  ordered := by
    refine List.pairwise_append.mpr ⟨h.ordered, List.pairwise_singleton .., fun r hr r' hr' => ?_⟩
    rw [List.mem_singleton.mp hr']
    exact h.within r hr
  within r hr := by
    rw [List.length_append]
    rcases List.mem_append.mp hr with hr | hr
    · exact Nat.le_add_right_of_le (h.within r hr)
    · rw [List.mem_singleton.mp hr]
      exact Nat.le_add_right ..
  upTo before r after hstarted := by
    rcases List.eq_nil_or_concat' after with rfl | ⟨after, last, rfl⟩
    · -- the response that is started now: nothing of it has gone out
      obtain ⟨rfl, rfl⟩ := List.append_singleton_inj.mp hstarted
      rw [List.take_left, ← h.total, hunsent, List.append_nil]
    · rw [← List.cons_append, ← List.append_assoc] at hstarted
      have hbefore := (List.append_singleton_inj.mp hstarted).1
      have hr : r ∈ d.started := hbefore ▸ List.mem_append_right _ List.mem_cons_self
      rw [List.take_append_of_le_length (h.within r hr)]
      exact h.upTo before r after hbefore

theorem move (h : Exact s u d) (hmove : Move s u d d') : Exact s u d' := by
  cases hmove with
  | send data result rest hsend => exact h.send _ hsend nofun
  | serve request hunsent => exact h.start _ hunsent _ (.inr ⟨request, rfl, rfl⟩)
  | fail hunsent =>
    have hfail := h.start HttpServer.badAnswer hunsent [] (.inl rfl)
    rwa [List.append_nil] at hfail
  | close _ => exact h.send .close rfl nofun

theorem path (h : Exact s u d) (hpath : Path s u d d') : Exact s u d' :=
  GuardedRun.invariant_of_path (fun _ _ hmove hd => hd.move hmove) hpath h

theorem shut (h : Exact s u d) : Exact s u d.shut := h.send .close rfl nofun

/-- The bytes up to the end of a response, at the latest moment it has for itself. -/
theorem upTo_end (h : Exact s u d) {before after : List StartedResponse} {r : StartedResponse}
    (hstarted : d.started = before ++ r :: after) {k : Nat}
    (hk : ∀ next ∈ after.head?, k ≤ next.position) :
    accepted (d.log.take k) <+: bytesOf before ++ r.bytes := by
  rw [← bytesOf_singleton, ← bytesOf_append]
  cases after with
  | nil =>
    rw [← hstarted, ← h.total]
    exact (accepted_take_of_log d.log k).trans (List.prefix_append ..)
  | cons next after =>
    rw [List.append_cons] at hstarted
    rw [← h.upTo _ next after hstarted]
    exact accepted_take_mono d.log (hk next rfl)

theorem inOrder (h : Exact s u d) {idle : Prop} (hidle : idle → d.unsent = []) :
    DeliveredInOrder s u d.log d.started idle where
  answered := h.answered
  only := h.total ▸ List.prefix_append ..
  each before r after hstarted k hk := by
    by_cases hpos : r.position ≤ k
    · -- what came before the response is cut off on both sides
      have hend := h.upTo_end hstarted hk
      rw [← accepted_split d.log hpos, h.upTo before r after hstarted] at hend
      exact (List.prefix_append_right_inj _).mp hend
    · rw [StartedResponse.acceptedBy, List.drop_of_length_le]
      · exact List.nil_prefix
      · exact Nat.le_trans (List.length_take_le ..) (by omega)
  followed before r next after hstarted := by
    have hpos : r.position ≤ next.position := by
      have hordered := h.ordered
      rw [hstarted] at hordered
      exact List.rel_of_pairwise_cons (List.pairwise_append.mp hordered).2.1 List.mem_cons_self
    have hsplit := accepted_split d.log hpos
    rw [h.upTo before r _ hstarted, h.upTo (before ++ [r]) next after
      (hstarted.trans (List.append_cons ..)), bytesOf_append, bytesOf_singleton] at hsplit
    exact List.append_cancel_left hsplit
  last before r hstarted hdone := by
    have hsplit := accepted_split d.log
      (h.within r (hstarted ▸ List.mem_append_right _ List.mem_cons_self))
    rw [h.upTo before r [] hstarted, List.take_length] at hsplit
    have htotal := h.total
    rw [hidle hdone, List.append_nil, hstarted, bytesOf_append, bytesOf_singleton] at htotal
    rw [StartedResponse.acceptedBy, List.take_length]
    exact List.append_cancel_left (hsplit.trans htotal)

end Exact
end Delivery

/-! ## Runs -/

/-- A connection and the responses started on it. -/
structure TracedConnection where
  conn : HttpConnection := {}
  started : List StartedResponse := []

namespace HttpServer
variable (s : HttpServer) (u : Surroundings)

def tracedStep (t : TracedConnection) (x : Input) : TracedConnection :=
  ⟨s.step u t.conn x, t.started ++ startsOf s u t.conn x⟩

/-- A connection after the calls `xs`. -/
def traced (xs : List Input) : TracedConnection := GuardedRun.run (s.tracedStep u) {} xs

theorem conn_traced (xs : List Input) :
    (s.traced u xs).conn = GuardedRun.run (s.step u) {} xs := by
  induction xs using List.reverseRecOn with
  | nil => rfl
  | append_singleton xs x ih =>
    rw [traced, GuardedRun.run_append, GuardedRun.run_append, ← ih]
    rfl

/-- What the runs keep: behind the connection there is an exact delivery. -/
def Delivers (t : TracedConnection) : Prop :=
  ∃ d : Delivery, Tracks t.conn t.started d ∧ d.Exact s u

variable {s u}

theorem Delivers.step {t : TracedConnection} (h : Delivers s u t) (x : Input) :
    Delivers s u (s.tracedStep u t x) := by
  obtain ⟨d, htracks, hexact⟩ := h
  obtain ⟨d', hpath, hcase⟩ := step_path (s := s) (u := u) htracks x
  rcases hcase with ⟨-, htracks'⟩ | ⟨-, htracks'⟩
  · exact ⟨_, htracks', (hexact.path hpath).shut⟩
  · exact ⟨_, htracks', hexact.path hpath⟩

theorem Delivers.start : Delivers s u {} := by
  refine ⟨⟨[], [], []⟩, ⟨rfl, rfl, ?_⟩, nofun, rfl, .nil, nofun, ?_⟩
  · intro st hst
    cases hst
    rfl
  · intro before r after h
    exact absurd h.symm (List.append_ne_nil_of_right_ne_nil _ nofun)

theorem delivered (s : HttpServer) (u : Surroundings) (xs : List Input) :
    DeliveredInOrder s u (GuardedRun.run (s.step u) {} xs).log (s.traced u xs).started
      (∃ st, (GuardedRun.run (s.step u) {} xs).state = some st ∧ NothingPending st) := by
  obtain ⟨d, htracks, hexact⟩ : Delivers s u (s.traced u xs) :=
    GuardedRun.run_invariant (fun _ _ h => h.step _) .start xs
  rw [← conn_traced, ← htracks.log, ← htracks.started]
  refine hexact.inOrder ?_
  rintro ⟨st, hst, hpending⟩
  exact (htracks.unsent st hst).trans hpending.unsent

/-- **Responses are delivered exactly**, whatever `send` takes and however the calls come. -/
theorem delivered_run (s : HttpServer) (u : Surroundings) (xs : List Input) :
    DeliveredInOrder s u (GuardedRun.run (s.step u) {} xs).log (s.traced u xs).started
      (∃ st, (GuardedRun.run (s.step u) {} xs).state = some st ∧ NothingPending st) :=
  delivered s u xs

end HttpServer
end NeuStack
