import NeuStack.ManagerEvents
import NeuStack.SendManager

/-! # Connections and their histories

An invariant that ties a TCB to the events of its connection is kept by the manager if it
is kept by what a move does to one connection and its history (`Conn.Turn`), and it goes on
when the TCB is gone: the manager **remembers** the connection as it was
(`Remembers`).  `Reachable.history` is this for runs, from the SYN of the connection on.
-/
namespace NeuStack
variable {σ : Type} [ICongestionControl σ]

namespace Conn
open TCPConnectionManager

/-- **What a move of the manager does to a connection and its history.** -/
inductive Turn : Conn σ → Conn σ → Prop
  | move {x : Option TCPSegment} {c c' : Conn σ} (h : Move x c c') : Turn c c'
  /-- Something that is no concern of the send side, or of another connection. -/
  | silent (c : Conn σ) {ev : Event} (hev : ev.Silent c.ptr) : Turn c (c.log ev)
  /-- A change of state; listeners, and what is closed, are not revived. -/
  | state (c : Conn σ) (s : TCPState)
      (hs : s = .closed ∨ (c.tcb.state ≠ .listen ∧ c.tcb.state ≠ .closed))
      (hshape : ({ c.tcb with state := s } : TCB σ).Shape) :
      Turn c { c with tcb := { c.tcb with state := s } }
  | receive (c : Conn σ) (r : TCBReceive) (onReceive onClose : Option Callback)
      (hshape : ({ c.tcb with toTCBReceive := r, onReceive, onClose } : TCB σ).Shape) :
      Turn c { c with tcb := { c.tcb with toTCBReceive := r, onReceive, onClose } }
  /-- The second SYN of a simultaneous open. -/
  | reopen (c : Conn σ) (seg : TCPSegment) (now : Nat) (hs : c.tcb.state = .synSent)
      (hopen : c.tcb.Opening) (huna : c.tcb.sndUna = c.tcb.iss) :
      Turn c ⟨c.ptr, (rewind seg c.tcb).sendSyn now (TCPFlags.syn ||| TCPFlags.ack), c.trace ++
        [.sent c.ptr .segment ((rewind seg c.tcb).segment (TCPFlags.syn ||| TCPFlags.ack)
          c.tcb.sndUna [])]⟩
  | release (c : Conn σ) (hbuf : c.tcb.sendBuffer.empty = true)
      (hshape : (releaseBuffers c.tcb).Shape) :
      Turn c { c with tcb := releaseBuffers c.tcb }

/-- A sequence of turns. -/
abbrev Turns : Conn σ → Conn σ → Prop := Relation.ReflTransGen Turn

/-- **A connection as it begins**: a listener, or a connection behind its SYN. -/
inductive Fresh : Conn σ → Prop
  | listen {p : Ptr} {tr : List Event} (hsilent : ∀ ev ∈ tr, ev.ptr ≠ some p) (localIp : UInt32)
      (port : UInt16) (onAccept : Option Callback) : Fresh ⟨p, listenTcb localIp port onAccept, tr⟩
  | opened {p : Ptr} {tr : List Event} (hsilent : ∀ ev ∈ tr, ev.ptr ≠ some p) {t : TCB σ}
      (ht : Unsent t) (now : Nat) {flags : UInt8}
      (hflags : flags = TCPFlags.syn ∨ flags = TCPFlags.syn ||| TCPFlags.ack) (s : TCPState)
      (hshape : ({ t.sendSyn now flags with state := s } : TCB σ).Shape) :
      Fresh ⟨p, { t.sendSyn now flags with state := s }, tr ++ [.created p t.tTuple,
        .sent p .segment (t.segment flags t.sndUna []), .moved p t.state s]⟩

variable {c c' : Conn σ} {p : Ptr} {evs : List Event}

theorem Turn.ptr (h : Turn c c') : c'.ptr = c.ptr := by
  cases h with
  | move h => exact Path.ptr (.single h)
  | _ => rfl

theorem Turns.ptr (h : Turns c c') : c'.ptr = c.ptr := by
  induction h with
  | refl => rfl
  | tail _ hturn ih => exact hturn.ptr.trans ih

/-- A turn adds to the history. -/
theorem Turn.before (h : Turn c c') : c.trace <+: c'.trace := by
  cases h with
  | move h => exact h.grows.isPrefix
  | silent => exact List.prefix_append ..
  | reopen => exact List.prefix_append ..
  | _ => exact List.prefix_refl _

theorem Turns.before (h : Turns c c') : c.trace <+: c'.trace := by
  induction h with
  | refl => exact List.prefix_refl _
  | tail _ hturn ih => exact ih.trans hturn.before

theorem Path.turns {x : Option TCPSegment} (h : Path x c c') : Turns c c' := by
  induction h with
  | refl => exact .refl
  | tail _ hmove ih => exact ih.tail (.move hmove)

/-- Events that are of no concern. -/
theorem turns_logs (c : Conn σ) (hevs : ∀ ev ∈ evs, ev.Silent c.ptr) :
    Turns c { c with trace := c.trace ++ evs } := by
  induction evs generalizing c with
  | nil =>
    rw [List.append_nil]
  | cons ev evs ih =>
    obtain ⟨hev, hrest⟩ := List.forall_mem_cons.mp hevs
    have hlog : Turns (c.log ev) _ := ih (c.log ev) hrest
    rw [log_trace, List.append_assoc, List.singleton_append] at hlog
    exact .head (.silent c hev) hlog

theorem turns_grows {tr : List Event} (c : Conn σ) (h : Grows (Event.Silent c.ptr) c.trace tr) :
    Turns c { c with trace := tr } := by
  obtain ⟨evs, rfl, hevs⟩ := h
  exact turns_logs c hevs

omit [ICongestionControl σ] in
theorem silent_moved (q : Ptr) (s s' : TCPState) (p : Ptr) : (Event.moved q s s').Silent p :=
  ⟨rfl, rfl, fun _ _ => Event.noConfusion⟩

theorem turns_setState (c : Conn σ) {s : TCPState}
    (hs : s = .closed ∨ (c.tcb.state ≠ .listen ∧ c.tcb.state ≠ .closed))
    (hshape : (c.setState s).tcb.Shape) : Turns c (c.setState s) :=
  (Relation.ReflTransGen.single (.silent c (silent_moved c.ptr c.tcb.state s c.ptr))).tail
    (.state (c.log _) s hs hshape)

theorem Turn.tTuple (h : Turn c c') : c'.tcb.tTuple = c.tcb.tTuple := by
  cases h with
  | move h => exact congrArg TCBIdentity.tTuple h.identity
  | _ => rfl

theorem Turns.tTuple (h : Turns c c') : c'.tcb.tTuple = c.tcb.tTuple := by
  induction h with
  | refl => rfl
  | tail _ hturn ih => exact hturn.tTuple.trans ih

/-- A listener stays one, or is closed. -/
theorem Turn.listener (h : Turn c c') (hs : c.tcb.state = .listen ∨ c.tcb.state = .closed) :
    c'.tcb.state = .listen ∨ c'.tcb.state = .closed := by
  cases h with
  | move h =>
    rcases h.state with hstate | ⟨hcan, -⟩
    · rwa [hstate]
    · rcases hs with hs | hs <;> rw [hs] at hcan <;> cases hcan
  | state _ s hnot _ =>
    rcases hnot with rfl | ⟨hlisten, hclosed⟩
    · exact Or.inr rfl
    · exact (hs.elim hlisten hclosed).elim
  | _ => exact hs

theorem Turns.listener (h : Turns c c') (hs : c.tcb.state = .listen ∨ c.tcb.state = .closed) :
    c'.tcb.state = .listen ∨ c'.tcb.state = .closed := by
  induction h with
  | refl => exact hs
  | tail _ hturn ih => exact hturn.listener ih

end Conn

namespace TCPConnectionManager
variable {m m' m'' o : TCPConnectionManager σ} {p q : Ptr} {t : TCB σ} {c : Conn σ}
  {x : Input σ} {s s' : Stage σ} {evs : List Event} {a : Call}

omit [ICongestionControl σ] in
/-- **`c` is the connection at its address, or what was last of it.** -/
structure Remembers (m : TCPConnectionManager σ) (c : Conn σ) : Prop where
  born : c.ptr < m.nextAddr
  trace : c.trace = m.trace
  tcb : ∀ t, m.heap c.ptr = some t → t = c.tcb

/-- From `m` to `m'`, the connections have their turns. -/
def Advances (m m' : TCPConnectionManager σ) : Prop :=
  ∀ c, m.Remembers c → ∃ c', m'.Remembers c' ∧ Conn.Turns c c'

namespace Advances

theorem refl (m : TCPConnectionManager σ) : Advances m m := fun c hc => ⟨c, hc, .refl⟩

theorem trans (h : Advances m m') (h' : Advances m' m'') : Advances m m'' := by
  intro c hc
  obtain ⟨c₁, hc₁, hturns⟩ := h c hc
  obtain ⟨c₂, hc₂, hturns'⟩ := h' c₁ hc₁
  exact ⟨c₂, hc₂, hturns.trans hturns'⟩

/-- The other data, events of no concern, and the death of TCBs. -/
theorem of_heap (hheap : ∀ p t, p < m.nextAddr → m'.heap p = some t → m.heap p = some t)
    (hnext : m.nextAddr ≤ m'.nextAddr) (htrace : m'.trace = m.trace ++ evs)
    (hevs : ∀ ev ∈ evs, ∀ p < m.nextAddr, ev.Silent p) : Advances m m' := by
  intro c hc
  refine ⟨{ c with trace := c.trace ++ evs },
    ⟨Nat.lt_of_lt_of_le hc.born hnext, ?_, fun t ht => hc.tcb t (hheap _ t hc.born ht)⟩,
    Conn.turns_logs c fun ev hev => hevs ev hev c.ptr hc.born⟩
  rw [htrace, hc.trace]

theorem same (hheap : ∀ p t, m'.heap p = some t → m.heap p = some t)
    (hnext : m'.nextAddr = m.nextAddr) (htrace : m'.trace = m.trace) : Advances m m' :=
  of_heap (fun p t _ => hheap p t) (Nat.le_of_eq hnext.symm)
    (show m'.trace = m.trace ++ [] by rw [htrace, List.append_nil]) fun _ hev => absurd hev List.not_mem_nil

theorem log (m : TCPConnectionManager σ) {ev : Event} (hev : ∀ p, ev.Silent p) :
    Advances m (m.log ev) :=
  of_heap (fun _ _ _ => id) (Nat.le_refl _)
    (show (m.log ev).trace = m.trace ++ [ev] from rfl) fun ev' hmem p _ => by
    rw [List.mem_singleton.mp hmem]
    exact hev p

/-- A connection comes back from what was done to it. -/
theorem store {c' : Conn σ} (hq : m.heap q = some t) (h : Conn.Turns ⟨q, t, m.trace⟩ c')
    (hgrows : ∀ p ≠ q, Grows (Event.Silent p) m.trace c'.trace) : Advances m (m.store c') := by
  have hptr : c'.ptr = q := h.ptr
  subst hptr
  intro c hc
  by_cases heq : c.ptr = c'.ptr
  · -- the connection itself
    obtain ⟨p, u, tr⟩ := c
    obtain ⟨hborn, htrace, htcb⟩ := hc
    dsimp only at heq htrace htcb
    subst heq htrace
    cases htcb t hq
    refine ⟨c', ⟨hborn, rfl, fun v hv => ?_⟩, h⟩
    rw [store_heap_self] at hv
    exact (Option.some.inj hv).symm
  · refine ⟨{ c with trace := c'.trace }, ⟨hc.born, rfl, fun v hv => ?_⟩,
      Conn.turns_grows c (hc.trace ▸ hgrows c.ptr heq)⟩
    exact hc.tcb v ((store_heap_ne m heq).symm.trans hv)

theorem conn {y : Option TCPSegment} {c' : Conn σ} (hq : m.heap q = some t)
    (h : Conn.Path y ⟨q, t, m.trace⟩ c') : Advances m (m.store c') := by
  refine store hq h.turns fun p hne => h.grows.mono fun ev hev => Event.silent_of_ptr ?_
  rw [hev.ptr]
  exact fun heq => hne (Option.some.inj heq).symm

/-- A change of the TCB alone. -/
theorem modify {t' : TCB σ} (hq : m.heap q = some t)
    (h : Conn.Turn ⟨q, t, m.trace⟩ ⟨q, t', m.trace⟩) : Advances m (m.store ⟨q, t', m.trace⟩) :=
  store hq (.single h) fun _ _ => .refl _

theorem eraseConnection (m : TCPConnectionManager σ) (k : TCPTuple) :
    Advances m (m.eraseConnection k) := by
  refine same (fun _ _ => eraseConnection_heap_some) ?_ (eraseConnection_trace m k)
  rw [TCPConnectionManager.eraseConnection]
  split <;> rfl

theorem eraseListener (m : TCPConnectionManager σ) (port : UInt16) :
    Advances m (m.eraseListener port) := by
  refine same (fun _ _ => eraseListener_heap_some) ?_ (eraseListener_trace m port)
  rw [TCPConnectionManager.eraseListener]
  split <;> rfl

omit [ICongestionControl σ] in
theorem silent_ended (q : Ptr) (s : TCPState) (cause : EndCause) (p : Ptr) :
    (Event.ended q s cause).Silent p := ⟨rfl, rfl, fun _ _ => Event.noConfusion⟩

theorem endTcb (m : TCPConnectionManager σ) (q : Ptr) (cause : EndCause) :
    Advances m (m.endTcb q cause) := by
  cases hq : m.heap q with
  | none =>
    rw [TCPConnectionManager.endTcb, on_of_freed hq]
    exact refl m
  | some t =>
    rw [endTcb_of_heap hq]
    have hevs : ∀ ev ∈ [Event.ended q t.state cause, .moved q t.state .closed], ∀ p, ev.Silent p := by
      intro ev hev p
      rcases List.mem_pair.mp hev with rfl | rfl
      · exact silent_ended q _ cause p
      · exact Conn.silent_moved q _ _ p
    refine store hq ?_ fun p _ => ⟨_, rfl, fun ev hev => hevs ev hev p⟩
    exact (Conn.turns_logs ⟨q, t, m.trace⟩ fun ev hev => hevs ev hev q).tail
      (.state _ .closed (Or.inl rfl) (.of_closed rfl))

theorem resetTcb (m : TCPConnectionManager σ) (q : Ptr) : Advances m (m.resetTcb q) := by
  rw [TCPConnectionManager.resetTcb]
  split
  · have hcount : Advances m { m with activeConnections := m.activeConnections - 1 } :=
      same (fun _ _ => id) rfl rfl
    exact hcount.trans (endTcb _ q .rst)
  · exact endTcb m q .rst

end Advances

/-! ## The moves -/

theorem live_of_isActive {s : TCPState} (h : s.isActive = true) : s ≠ .listen ∧ s ≠ .closed := by
  constructor <;> rintro rfl <;> cases h

omit [ICongestionControl σ] in
/-- The connections that begin on the way from `m` to `m'`. -/
def Begins (m m' : TCPConnectionManager σ) : Prop :=
  ∀ p, m.nextAddr ≤ p → p < m'.nextAddr →
    ∃ c₀ c, c₀.ptr = p ∧ Conn.Fresh c₀ ∧ Conn.Turns c₀ c ∧ m'.Remembers c

/-- What a move does to the connections there are, and to the one it makes. -/
structure Unfolds (m m' : TCPConnectionManager σ) : Prop where
  advances : Advances m m'
  begins : Begins m m'

namespace Unfolds

theorem of_advances (h : Advances m m') (hnext : m'.nextAddr ≤ m.nextAddr) : Unfolds m m' :=
  ⟨h, fun _ hle hlt => absurd (Nat.lt_of_lt_of_le hlt (hnext.trans hle)) (Nat.lt_irrefl _)⟩

theorem trans (h : Unfolds m m') (h' : Advances m' m'') (hnext : m''.nextAddr ≤ m'.nextAddr) :
    Unfolds m m'' := by
  refine ⟨h.advances.trans h', fun p hle hlt => ?_⟩
  obtain ⟨c₀, c, hptr, hfresh, hturns, hc⟩ := h.begins p hle (Nat.lt_of_lt_of_le hlt hnext)
  obtain ⟨c', hc', hturns'⟩ := h' c hc
  exact ⟨c₀, c', hptr, hfresh, hturns.trans hturns', hc'⟩

/-- A new TCB, filed at the next address. -/
theorem file {evs : List Event} (hheap : m'.heap = Function.update m.heap m.nextAddr (some t))
    (hnext : m'.nextAddr = m.nextAddr + 1) (htrace : m'.trace = m.trace ++ evs)
    (hevs : ∀ ev ∈ evs, ∀ p ≠ m.nextAddr, ev.Silent p)
    (hfresh : ∃ c₀, Conn.Fresh c₀ ∧ Conn.Turns c₀ ⟨m.nextAddr, t, m.trace ++ evs⟩) :
    Unfolds m m' := by
  refine ⟨.of_heap (fun p u hlt hu => ?_) (hnext ▸ Nat.le_succ _) htrace fun ev hev p hlt =>
    hevs ev hev p (Nat.ne_of_lt hlt), fun p hle hlt => ?_⟩
  · rwa [hheap, Function.update_of_ne (Nat.ne_of_lt hlt)] at hu
  · rw [hnext] at hlt
    obtain rfl : p = m.nextAddr := Nat.le_antisymm (Nat.le_of_lt_succ hlt) hle
    obtain ⟨c₀, hc₀, hturns⟩ := hfresh
    refine ⟨c₀, _, hturns.ptr.symm, hc₀, hturns, hnext ▸ Nat.lt_succ_self _, htrace.symm,
      fun u hu => ?_⟩
    rw [hheap, Function.update_self] at hu
    exact (Option.some.inj hu).symm

omit [ICongestionControl σ] in
theorem silent_others {ev : Event} (h : ev.ptr = some q) : ∀ p ≠ q, ev.Silent p :=
  fun _ hne => Event.silent_of_ptr (h ▸ fun heq => hne (Option.some.inj heq).symm)

theorem openWith (hmade : m.Made) (ht : Conn.Unsent t) (env : Env) {flags : UInt8}
    (hflags : flags = TCPFlags.syn ∨ flags = TCPFlags.syn ||| TCPFlags.ack) (s : TCPState)
    (hwf : (m.openWith env flags s t).WellFormed) : Unfolds m (m.openWith env flags s t) := by
  have hshape := hwf.shape m.nextAddr _ (Function.update_self ..)
  refine file rfl rfl rfl (fun ev hev => ?_)
    ⟨_, .opened (fun ev hev => hmade.silent hev) ht env.now hflags s hshape, .refl⟩
  simp only [List.mem_cons, List.not_mem_nil, or_false] at hev
  rcases hev with rfl | rfl | rfl <;> exact silent_others rfl

end Unfolds

theorem CallMove.unfolds (hmove : CallMove a m m') (hwf : m.WellFormed) (hmade : m.Made) :
    Unfolds m m' := by
  have hwf' := hwf.callMove hmove
  cases hmove with
  | conn _ hq hstep => exact .of_advances (.conn hq hstep.path) (Nat.le_refl _)
  | @setCallbacks _ _ q t onReceive onClose _ hq =>
    exact .of_advances (.modify hq (.receive _ t.toTCBReceive onReceive onClose
      (hwf'.shape q _ (store_heap_self ..)))) (Nat.le_refl _)
  | setDefaultOptions => exact .of_advances (.same (fun _ _ => id) rfl rfl) (Nat.le_refl _)
  | listen _ port onAccept =>
    rw [TCPConnectionManager.listen]
    split
    · exact .of_advances (.refl m) (Nat.le_refl _)
    · split
      · exact .of_advances (.refl m) (Nat.le_refl _)
      · refine .file rfl rfl (show _ = m.trace ++ [] from (List.append_nil _).symm)
          (fun _ hev => absurd hev List.not_mem_nil) ⟨_, ?_, .refl⟩
        rw [List.append_nil]
        exact .listen (fun ev hev => hmade.silent hev) _ _ _
  | unlisten port =>
    refine .of_advances (.eraseListener m port) ?_
    rw [TCPConnectionManager.eraseListener]
    split <;> exact Nat.le_refl _
  | connect env _ remoteIp remotePort localPort onConnect hlimit hfree =>
    have hopen := Unfolds.openWith (m := m) hmade (SendSide.unsent_connectTcb m env
      ⟨m.localIp, remoteIp, localPort, remotePort⟩ onConnect) env (Or.inl rfl) .synSent
      (hwf.openWith env (Or.inl rfl) (Or.inl rfl) rfl rfl rfl rfl rfl rfl rfl hlimit hfree)
    exact hopen.trans (.log _ fun p => ⟨rfl, rfl, fun _ _ => Event.noConfusion⟩) (Nat.le_refl _)
  | @abort _ q t =>
    have hlog : Advances m (m.log (.ended q .synSent .localClose)) :=
      .log m (Advances.silent_ended q _ _)
    refine .of_advances (hlog.trans (.eraseConnection _ _)) ?_
    rw [TCPConnectionManager.eraseConnection]
    split <;> exact Nat.le_refl _

theorem Work.unfolds (hwork : Work x s s') (hwf : s.mgr.WellFormed) (hmade : s.mgr.Made) :
    Unfolds s.mgr s'.mgr := by
  have hwf' := hwf.work hwork
  cases hwork with
  | call _ _ hcall => exact hcall.unfolds hwf hmade
  | conn _ hq hstep => exact .of_advances (.conn hq hstep.path) (Nat.le_refl _)
  | notifyClose =>
    exact .of_advances (.log _ fun p => ⟨rfl, rfl, fun _ _ => Event.noConfusion⟩) (Nat.le_refl _)
  | deliver =>
    exact .of_advances (.log _ fun p => ⟨rfl, rfl, fun _ _ => Event.noConfusion⟩) (Nat.le_refl _)
  | deliverOoo =>
    exact .of_advances (.log _ fun p => ⟨rfl, rfl, fun _ _ => Event.noConfusion⟩) (Nat.le_refl _)
  | @advanceRcv m q t seq hq =>
    exact .of_advances (.modify hq (.receive _ { t.toTCBReceive with rcvNxt := seq } _ _
      (hwf'.shape q _ (store_heap_self ..)))) (Nat.le_refl _)
  | @popOoo m q t hq =>
    refine .of_advances (.modify hq ?_) (Nat.le_refl _)
    have hshape := hwf'.shape q _ (store_heap_self ..)
    have hpop : TCPConnectionManager.popOoo t =
        { t with toTCBReceive := (TCPConnectionManager.popOoo t).toTCBReceive } := by
      rw [TCPConnectionManager.popOoo]
      split <;> rfl
    rw [hpop] at hshape ⊢
    exact .receive _ _ _ _ hshape
  | @stash m q t seg _ hq =>
    refine .of_advances (.modify hq ?_) (Nat.le_refl _)
    have hshape := hwf'.shape q _ (store_heap_self ..)
    have hstash : addToOooQueue seg.seqNum seg.data t =
        { t with toTCBReceive := (addToOooQueue seg.seqNum seg.data t).toTCBReceive } := by
      rw [addToOooQueue]
      split <;> rfl
    rw [hstash] at hshape ⊢
    exact .receive _ _ _ _ hshape

/-- **A move of the manager, for all its connections.** -/
theorem Move.unfolds (hmove : Move o x s s') (hwf : s.mgr.WellFormed) (hmade : s.mgr.Made) :
    Unfolds s.mgr s'.mgr := by
  have hwf' := hwf.move hmove
  cases hmove with
  | work hwork => exact hwork.unfolds hwf hmade
  | reply m seg =>
    exact .of_advances (.log m fun p => ⟨rfl, rfl, fun _ _ => Event.noConfusion⟩) (Nat.le_refl _)
  | replace =>
    refine .of_advances ((Advances.endTcb _ _ _).trans (.eraseConnection _ _)) ?_
    rw [eraseConnection_nextAddr, endTcb_nextAddr]
  | accept env =>
    exact .openWith hmade (SendSide.unsent_acceptTcb ..) env (Or.inr rfl) .synRcvd hwf'
  | @simultaneousOpen env m q t seg hseg hq hs =>
    rw [simultaneousOpen_eq] at hwf' ⊢
    have hshape := hwf'.shape q _ (store_heap_self m ⟨q, _, _⟩)
    have hopen := (hwf.shape q t hq).sent hs
    refine .of_advances (.store hq ?_ fun p hne => ⟨_, rfl, fun ev hev => ?_⟩) (Nat.le_refl _)
    · have hreopen := Conn.Turn.reopen ⟨q, t, m.trace⟩ seg env.now hs hopen
        (hwf.unacked q t hq (Or.inl hs))
      have hlive : t.state ≠ .listen ∧ t.state ≠ .closed := by
        rw [hs]
        decide
      have hstate := (Relation.ReflTransGen.single hreopen).trans
        (Conn.turns_setState _ (s := .synRcvd) (Or.inr hlive) hshape)
      rw [Conn.setState, List.append_assoc] at hstate
      exact hstate
    · rcases List.mem_pair.mp hev with rfl | rfl <;> exact Unfolds.silent_others rfl p hne
  | @establish m q t t' seg c hseg hq hack hopening hpath hsame =>
    have hlive : c.tcb.state ≠ .listen ∧ c.tcb.state ≠ .closed := by
      rw [hsame]
      rcases hopening.opening with hs | hs <;> rw [hs] <;> decide
    have hfirst : Conn.Turns ⟨q, t, m.trace⟩ ⟨q, t', m.trace⟩ := by
      cases hopening with
      | synSent hs =>
        exact .single (.receive _ (receiveSyn seg t).toTCBReceive _ _
          (.of_sent hs (((hwf.shape q t hq).sent hs).congr rfl rfl rfl rfl rfl rfl rfl)))
      | synRcvd => exact .refl
    have hshape : (c.setState .established).tcb.Shape := .of_active rfl fun h => by cases h
    have hall : Conn.Turns ⟨q, t, m.trace⟩ (c.setState .established) :=
      (hfirst.trans hpath.turns).trans (Conn.turns_setState c (Or.inr hlive) hshape)
    have hptr : c.ptr = q := hpath.ptr
    have hgrows : ∀ p ≠ q, Grows (Event.Silent p) m.trace (c.setState .established).trace := by
      intro p hne
      refine Grows.snoc (hpath.grows.mono fun ev hev => ?_) (Conn.silent_moved _ _ _ p)
      exact Unfolds.silent_others hev.ptr p hne
    have hstore := Advances.store hq hall hgrows
    rw [Conn.setState, hptr] at hstore
    have hest : Advances m ((m.store c).establish q) := by
      rw [establish_store hptr]
      exact hstore.trans (.same (fun _ _ => id) rfl rfl)
    refine .of_advances (hest.trans
      (.log _ fun p => ⟨rfl, rfl, fun _ _ => Event.noConfusion⟩)) ?_
    rw [establish_store hptr]
    exact Nat.le_refl _
  | @receiveFin env m q t seg handler next hseg hq hfin hseq hedge =>
    rw [receiveFin_of_heap hq] at hwf' ⊢
    have hrcv : Conn.Turns ⟨q, t, m.trace⟩ ⟨q, setRcvNxt (t.rcvNxt + 1) t, m.trace⟩ :=
      .single (.receive _ { t.toTCBReceive with rcvNxt := t.rcvNxt + 1 } _ _
        (.of_active hedge.isActive.1 ((hwf.shape q t hq).finSent hedge.isActive.1)))
    have hack : Conn.Turns ⟨q, setRcvNxt (t.rcvNxt + 1) t, m.trace⟩ _ :=
      .single (.move (x := none) (.ack env _ (Or.inl hedge.isActive.1)))
    rw [Conn.sendSegment_ack] at hack
    have hfin : (Event.finReceived q handler t.state).Silent q :=
      ⟨rfl, rfl, fun _ _ => Event.noConfusion⟩
    have hall := ((hrcv.trans hack).tail (.silent _ hfin)).trans
      (Conn.turns_setState _ (s := next) (Or.inr (live_of_isActive hedge.isActive.1))
        (hwf'.shape q _ (store_heap_self ..)))
    rw [Conn.setState, Conn.log_trace, List.append_assoc, List.append_assoc] at hall
    refine .of_advances (.store hq hall fun p hne => ⟨_, rfl, fun ev hev => ?_⟩) (Nat.le_refl _)
    simp only [List.mem_cons, List.not_mem_nil, or_false] at hev
    rcases hev with rfl | rfl | rfl <;> exact Unfolds.silent_others rfl p hne
  | @finAcked m q t next hq hedge =>
    refine .of_advances (.store hq (Conn.turns_setState _ (s := next)
      (Or.inr (live_of_isActive hedge.isActive.1)) (hwf'.shape q _ (store_heap_self ..)))
      fun p _ => ?_) (Nat.le_refl _)
    exact .single (Conn.silent_moved q _ _ p)
  | lastAck =>
    refine .of_advances ((Advances.endTcb _ _ _).trans (.eraseConnection _ _)) ?_
    rw [eraseConnection_nextAddr, endTcb_nextAddr]
  | rst =>
    refine .of_advances (.resetTcb _ _) ?_
    rw [resetTcb, endTcb_nextAddr]
    split <;> exact Nat.le_refl _
  | giveUp => exact .of_advances (.endTcb _ _ _) (by rw [endTcb_nextAddr])
  | timeWaitEnd =>
    refine .of_advances ((Advances.endTcb _ _ _).trans (.eraseConnection _ _)) ?_
    rw [eraseConnection_nextAddr, endTcb_nextAddr]
  | eraseClosed => exact .of_advances (.eraseConnection _ _) (by rw [eraseConnection_nextAddr])
  | @eraseReset m _ _ port =>
    exact .of_advances (.eraseListener _ _) (by rw [eraseListener_nextAddr])
  | timeWaitList => exact .of_advances (.same (fun _ _ => id) rfl rfl) (Nat.le_refl _)
  | @release m q t hq hs =>
    refine .of_advances (.modify hq (.release _ ?_ (hwf'.shape q _ (store_heap_self ..))))
      (Nat.le_refl _)
    exact (hwf.shape q t hq).finSent (by rw [hs]; rfl) (by rw [hs]; rfl)

/-! ## Runs -/

theorem Path.unfolds (hpath : Path o x s s') (hwf : s.mgr.WellFormed) (hmade : s.mgr.Made) :
    Unfolds s.mgr s'.mgr ∧ s'.mgr.WellFormed ∧ s'.mgr.Made := by
  induction hpath with
  | refl => exact ⟨.of_advances (.refl _) (Nat.le_refl _), hwf, hmade⟩
  | tail _ hmove ih =>
    obtain ⟨hall, hwf', hmade'⟩ := ih
    obtain ⟨hadvances, hbegins⟩ := hmove.unfolds hwf' hmade'
    refine ⟨⟨hall.advances.trans hadvances, fun p hle hlt => ?_⟩, hwf'.move hmove,
      hmove.made hwf' hmade'⟩
    rcases Nat.lt_or_ge p _ with hold | hnew
    · obtain ⟨c₀, c, hptr, hfresh, hturns, hc⟩ := hall.begins p hle hold
      obtain ⟨c', hc', hturns'⟩ := hadvances c hc
      exact ⟨c₀, c', hptr, hfresh, hturns.trans hturns', hc'⟩
    · exact hbegins p hnew hlt

theorem unfolds_step (hwf : m.WellFormed) (hmade : m.Made) (x : Input σ) :
    Unfolds m (m.step x) ∧ (m.step x).Made := by
  obtain ⟨hall, -, hmade'⟩ := (path_step hwf x).unfolds hwf hmade
  exact ⟨hall, hmade'⟩

/-- Every connection that was ever made is remembered, from its SYN on. -/
def Recalls (m : TCPConnectionManager σ) : Prop :=
  ∀ p < m.nextAddr, ∃ c₀ c, c₀.ptr = p ∧ Conn.Fresh c₀ ∧ Conn.Turns c₀ c ∧ m.Remembers c

/-- **Every connection has a history**, which begins with its SYN. -/
theorem Reachable.history (h : m.Reachable) : m.Made ∧ m.Recalls := by
  obtain ⟨localIp, xs, rfl⟩ := h
  have hstep : ∀ (m : TCPConnectionManager σ) x, m.WellFormed ∧ m.Made ∧ m.Recalls →
      (m.step x).WellFormed ∧ (m.step x).Made ∧ (m.step x).Recalls := by
    rintro m x ⟨hwf, hmade, hrecalls⟩
    obtain ⟨hall, hmade'⟩ := unfolds_step hwf hmade x
    refine ⟨hwf.step x, hmade', fun p hlt => ?_⟩
    rcases Nat.lt_or_ge p m.nextAddr with hold | hnew
    · obtain ⟨c₀, c, hptr, hfresh, hturns, hc⟩ := hrecalls p hold
      obtain ⟨c', hc', hturns'⟩ := hall.advances c hc
      exact ⟨c₀, c', hptr, hfresh, hturns.trans hturns', hc'⟩
    · exact hall.begins p hnew hlt
  refine (GuardedRun.run_invariant hstep ⟨WellFormed.init localIp, ?_, ?_⟩ xs).2
  · exact fun _ hev => absurd hev List.not_mem_nil
  · exact fun p hlt => absurd hlt (Nat.not_lt_zero p)

end TCPConnectionManager
end NeuStack
