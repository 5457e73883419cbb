import NeuStack.TimeWaitMoves
import NeuStack.ManagerEvents
import NeuStack.Deadlines

/-! # What a step does to TIME_WAIT

Function by function: the timer functions and the tick, and the handlers, most of
which are calm.  `step_effect` is the result: a step that is not calm lets one
connection enter TIME_WAIT, renews the entry of one, ends one by a RST or by
overwriting its entry, or is a tick.
-/
namespace NeuStack
variable {σ : Type}

namespace TCPConnectionManager
variable {m m' m'' : TCPConnectionManager σ} {p q : Ptr} {t : TCB σ} {k k' : TCPTuple}

/-! ## Losing one connection -/

/-- The list is as it was, and of the connections that wait at most the one at `p` is gone. -/
structure Loses (p : Ptr) (m m' : TCPConnectionManager σ) : Prop where
  list : m'.timeWaitList = m.timeWaitList
  waits : ∀ q k, m'.WaitsFor q k ↔ m.WaitsFor q k ∧ q ≠ p
  drained : m.Drained → m'.Drained

theorem Loses.calm_after (h : Loses p m m') (h' : Calm m' m'') : Loses p m m'' :=
  ⟨h'.list.trans h.list, fun q k => (h'.waits q k).trans (h.waits q k),
    fun hd => h'.drained (h.drained hd)⟩

/-- A connection that does not wait is no loss. -/
theorem Loses.calm (h : Loses p m m') (hawake : ∀ k, ¬ m.WaitsFor p k) : Calm m m' := by
  refine ⟨h.list, fun q k => (h.waits q k).trans ⟨And.left, fun hw => ⟨hw, ?_⟩⟩, h.drained⟩
  rintro rfl
  exact hawake k hw

/-- Closing a TCB. -/
theorem loses_store (hp : m.heap p = some t) {c : Conn σ} (hptr : c.ptr = p)
    (hs : c.tcb.state = .closed) : Loses p m (m.store c) := by
  subst hptr
  have hclosed : c.tcb.state ≠ .timeWait := by rw [hs]; decide
  refine ⟨rfl, fun q k => ?_, fun hd q u hu hw => ?_⟩
  · rcases eq_or_ne q c.ptr with rfl | hne
    · rw [waitsFor_of_heap (store_heap_self m c)]
      exact iff_of_false (fun h => hclosed h.1) (fun h => h.2 rfl)
    · rw [WaitsFor, store_heap_ne m hne]
      exact (and_iff_left hne).symm
  · rcases eq_or_ne q c.ptr with rfl | hne
    · rw [store_heap_self] at hu
      cases hu
      exact absurd hw hclosed
    · exact hd q u ((store_heap_ne m hne).symm.trans hu) hw

theorem loses_endTcb (hp : m.heap p = some t) (cause : EndCause) :
    Loses p m (m.endTcb p cause) := by
  rw [endTcb_of_heap hp]
  exact loses_store hp rfl rfl

theorem loses_resetTcb (hp : m.heap p = some t) : Loses p m (m.resetTcb p) := by
  unfold resetTcb
  split
  · have hend := loses_endTcb (m := { m with activeConnections := m.activeConnections - 1 })
      (t := t) hp .rst
    exact ⟨hend.list, hend.waits, hend.drained⟩
  · exact loses_endTcb hp .rst

/-- A closed connection leaves the table. -/
theorem loses_remove (hwf : m.WellFormed) (hp : m.heap p = some t)
    (hk : (t.tTuple, p) ∈ m.connections) (cause : EndCause) :
    Loses p m ((m.endTcb p cause).eraseConnection t.tTuple) := by
  refine (loses_endTcb hp cause).calm_after (.eraseConnection fun q u hq hu => ?_)
  rw [findTcb, (endTcb_tables cause).1] at hq
  have hqp : q = p := Option.some.inj (hq.symm.trans (hwf.findTcb_iff.mpr hk))
  have hself : (m.endTcb p cause).heap p = some { t with state := .closed } := by
    rw [endTcb_of_heap hp]
    exact store_heap_self m ⟨p, _, _⟩
  rw [hqp, hself] at hu
  cases hu
  intro hwait
  cases hwait

/-! ## The timer functions -/

/-- The list `l` loses the entries `startTimeWaitTimer` makes room with. -/
def overflow (l : List (Nat × TCPTuple)) : Nat := l.length + 1 - maxTimeWaitEntries

/-- Who waits under the tuple is ended; nobody else is touched. -/
theorem expireTimeWait_effect (hwf : m.WellFormed) (cause : EndCause) (k : TCPTuple) :
    (m.expireTimeWait cause k).timeWaitList = m.timeWaitList ∧
      (∀ q k', (m.expireTimeWait cause k).WaitsFor q k' ↔ m.WaitsFor q k' ∧ k' ≠ k) ∧
      (m.Drained → (m.expireTimeWait cause k).Drained) := by
  -- nobody waits under the tuple: nothing happens
  have hnobody : (∀ p, ¬ m.WaitsFor p k) → ∀ q k', m.WaitsFor q k' ↔ m.WaitsFor q k' ∧ k' ≠ k := by
    refine fun hnone q k' => ⟨fun hw => ⟨hw, ?_⟩, And.left⟩
    rintro rfl
    exact hnone q hw
  unfold expireTimeWait
  split
  · rename_i hfind
    refine ⟨rfl, hnobody fun p hw => ?_, id⟩
    rw [hw.findTcb hwf] at hfind
    cases hfind
  · rename_i p hfind
    obtain ⟨t, hp, rfl, -⟩ := hwf.find hfind
    have hk := hwf.findTcb_iff.mp hfind
    rw [test_of_heap hp]
    split
    · rename_i hs
      have hs : t.state = .timeWait := by simpa using hs
      have hlose := loses_remove hwf hp hk cause
      rw [hwf.deleteTcb_endTcb hp hk]
      refine ⟨hlose.list, fun q k' => (hlose.waits q k').trans (and_congr_right fun hw => ?_),
        hlose.drained⟩
      have hself : m.WaitsFor p t.tTuple := ⟨t, hp, hs, rfl⟩
      refine not_congr ⟨?_, ?_⟩
      · rintro rfl
        exact hw.tuple_eq hself
      · rintro rfl
        exact hw.unique hself hwf
    · rename_i hs
      refine ⟨rfl, hnobody fun q hw => ?_, id⟩
      have hq : q = p := Option.some.inj ((hw.findTcb hwf).symm.trans hfind)
      rw [hq, waitsFor_of_heap hp] at hw
      exact hs (beq_iff_eq.mpr hw.1)

variable [ICongestionControl σ]

/-- **Making room**: the entries in front are dropped, and who waits under one is ended. -/
theorem evictTimeWait_effect (hwf : m.WellFormed) (l : List (Nat × TCPTuple)) :
    (m.evictTimeWait l).timeWaitList = l.drop (overflow l) ∧
      (∀ q k, (m.evictTimeWait l).WaitsFor q k ↔
        m.WaitsFor q k ∧ k ∉ (l.take (overflow l)).map (·.2)) ∧
      ∀ q u, (m.evictTimeWait l).heap q = some u → m.heap q = some u := by
  induction l generalizing m with
  | nil => exact ⟨rfl, fun q k => (and_iff_left List.not_mem_nil).symm, fun _ _ => id⟩
  | cons entry rest ih =>
    unfold evictTimeWait
    split
    · rename_i hfull
      have hover : overflow (entry :: rest) = overflow rest + 1 := by
        rw [List.length_cons] at hfull
        rw [overflow, overflow, List.length_cons]
        omega
      obtain ⟨-, hwaits, -⟩ := expireTimeWait_effect hwf .timeWaitEvicted entry.2
      obtain ⟨hpath, hheap⟩ := path_expireTimeWait (o := m) (x := ⟨.silent 0 0, .timer []⟩) hwf
        (Or.inr rfl) entry.2
      obtain ⟨hlist, hwaits', hheap'⟩ := ih (hpath.wellFormed hwf)
      rw [hover, List.drop_succ_cons, List.take_succ_cons, List.map_cons]
      refine ⟨hlist, fun q k => ?_, fun q u hu => hheap q u (hheap' q u hu)⟩
      rw [hwaits', hwaits, List.mem_cons, not_or, and_assoc]
    · rename_i hroom
      have hover : overflow (entry :: rest) = 0 := by
        rw [overflow]
        omega
      rw [hover, List.drop_zero, List.take_zero]
      exact ⟨rfl, fun q k => (and_iff_left List.not_mem_nil).symm, fun _ _ => id⟩

/-- `m'` is `m` with the timer of the connection at `p` started, which is in TIME_WAIT
under `k`: its entry is the last one. -/
structure Started (now : Nat) (p : Ptr) (k : TCPTuple) (m m' : TCPConnectionManager σ) : Prop where
  list : m'.timeWaitList = m.timeWaitList.drop (overflow m.timeWaitList) ++
    if k ∈ (m.timeWaitList.take (overflow m.timeWaitList)).map (·.2) then []
    else [(now + timeWaitDuration, k)]
  waits : ∀ q k', m'.WaitsFor q k' ↔
    m.WaitsFor q k' ∧ k' ∉ (m.timeWaitList.take (overflow m.timeWaitList)).map (·.2)
  drained : (∀ q u, q ≠ p → m.heap q = some u → u.state = .timeWait → u.retransmitQueue = []) →
    m'.Drained

/-- **The timer of a connection is started.** -/
theorem startTimeWaitTimer_effect (hwf : m.WellFormed) (env : Env) (hw : m.WaitsFor p k) :
    Started env.now p k m (m.startTimeWaitTimer env p) := by
  obtain ⟨hlist, hwaits, hheap⟩ := evictTimeWait_effect hwf m.timeWaitList
  obtain ⟨t, hp, hs, rfl⟩ := hw
  unfold startTimeWaitTimer
  generalize m.evictTimeWait m.timeWaitList = m₁ at hlist hwaits hheap
  dsimp only
  split
  · -- an entry of its own tuple was dropped, and the connection with it
    rename_i hgone
    have hdropped : t.tTuple ∈ (m.timeWaitList.take (overflow m.timeWaitList)).map (·.2) := by
      by_contra hnot
      obtain ⟨u, hu, -⟩ := (hwaits p t.tTuple).mpr ⟨⟨t, hp, hs, rfl⟩, hnot⟩
      rw [hgone] at hu
      cases hu
    refine ⟨by rw [hlist, if_pos hdropped, List.append_nil], hwaits, fun hd q u hu hw => ?_⟩
    refine hd q u ?_ (hheap q u hu) hw
    rintro rfl
    rw [hgone] at hu
    cases hu
  · rename_i u hu
    have hut := hheap p u hu
    rw [hp] at hut
    cases hut
    have hkept := ((hwaits p t.tTuple).mp ⟨t, hu, hs, rfl⟩).2
    let m₂ : TCPConnectionManager σ :=
      { m₁ with timeWaitList := m₁.timeWaitList ++ [(env.now + timeWaitDuration, t.tTuple)] }
    have hu₂ : m₂.heap p = some t := hu
    show Started env.now p t.tTuple m (m₂.modify p releaseBuffers)
    rw [modify_of_heap hu₂]
    refine ⟨?_, fun q k' => Iff.trans ?_ (hwaits q k'), fun hd q u hu hw => ?_⟩
    · show m₁.timeWaitList ++ _ = _
      rw [hlist, if_neg hkept]
    · exact (Calm.store (c := ⟨p, releaseBuffers t, m₂.trace⟩) hu₂ rfl Iff.rfl
        fun _ => ⟨rfl, fun _ => rfl⟩).waits q k'
    · rcases eq_or_ne q p with rfl | hne
      · have hself := store_heap_self m₂ ⟨q, releaseBuffers t, m₂.trace⟩
        rw [show (Conn.mk q (releaseBuffers t) m₂.trace).ptr = q from rfl, hu] at hself
        cases hself
        rfl
      · rw [store_heap_ne m₂ hne] at hu
        exact hd q u hne (hheap q u hu) hw

omit [ICongestionControl σ] in
/-- A retransmitted FIN renews the first entry of the tuple. -/
theorem restartTimeWaitTimer_effect (env : Env) (hw : m.WaitsFor p k)
    (hentry : k ∈ m.timeWaitList.map (·.2)) : m.restartTimeWaitTimer env p =
      { m with timeWaitList := Deadlines.renew (env.now + timeWaitDuration) k m.timeWaitList } := by
  have hrenew : ∀ deadline (l : List (Nat × TCPTuple)),
      renewEntry deadline k l = Deadlines.renew deadline k l := by
    intro deadline l
    induction l with
    | nil => rfl
    | cons entry rest ih => rw [renewEntry, Deadlines.renew, ih]
  obtain ⟨t, hp, -, rfl⟩ := hw
  have hany : m.timeWaitList.any (·.2 == t.tTuple) = true := by
    obtain ⟨entry, hmem, heq⟩ := List.mem_map.mp hentry
    exact List.any_eq_true.mpr ⟨entry, hmem, beq_iff_eq.mpr heq⟩
  rw [restartTimeWaitTimer, hp]
  dsimp only
  rw [if_pos hany, hrenew]

/-- **The expiry**: who waits under a tuple with a deadline that has come is ended. -/
theorem expireAll_effect (hwf : m.WellFormed) (now : Nat) (l : List (Nat × TCPTuple)) :
    let m' := l.foldl (fun m entry =>
      if entry.1 ≤ now then m.expireTimeWait .timeWaitExpired entry.2 else m) m
    m'.timeWaitList = m.timeWaitList ∧
      (∀ q k, m'.WaitsFor q k ↔ m.WaitsFor q k ∧ ∀ d ∈ Deadlines.due k l, now < d) ∧
      (m.Drained → m'.Drained) := by
  induction l generalizing m with
  | nil => exact ⟨rfl, fun q k => (and_iff_left (fun _ hd => nomatch hd)).symm, id⟩
  | cons entry rest ih =>
    rw [List.foldl_cons]
    by_cases hdue : entry.1 ≤ now
    · obtain ⟨hlist, hwaits, hdrained⟩ := expireTimeWait_effect hwf .timeWaitExpired entry.2
      have hpath := (path_expireTimeWait (o := m) (x := ⟨.silent 0 0, .timer []⟩) hwf
        (Or.inl rfl) entry.2).1
      obtain ⟨hlist', hwaits', hdrained'⟩ := ih (hpath.wellFormed hwf)
      rw [if_pos hdue]
      refine ⟨hlist'.trans hlist, fun q k => ?_, fun hd => hdrained' (hdrained hd)⟩
      rw [hwaits', hwaits, and_assoc, Deadlines.due_cons]
      refine and_congr_right fun hw => ?_
      split
      · rename_i heq
        refine iff_of_false (fun h => h.1 heq.symm) (fun h => ?_)
        exact Nat.not_lt.mpr hdue (h entry.1 (List.mem_cons_self ..))
      · rename_i hne
        exact and_iff_right (Ne.symm hne)
    · obtain ⟨hlist', hwaits', hdrained'⟩ := ih hwf
      rw [if_neg hdue]
      refine ⟨hlist', fun q k => ?_, hdrained'⟩
      rw [hwaits', Deadlines.due_cons]
      refine and_congr_right fun hw => ?_
      split
      · rw [List.forall_mem_cons]
        exact (and_iff_right (Nat.not_le.mp hdue)).symm
      · exact Iff.rfl

/-! ## The handlers -/

variable {x : Input σ} {seg : TCPSegment} {s : TCPState}

/-- `m'` is `m` with the connection at `p`, of the tuple `k`, in TIME_WAIT, and its
timer started. -/
structure Enters (now : Nat) (p : Ptr) (k : TCPTuple) (m m' : TCPConnectionManager σ) : Prop where
  list : m'.timeWaitList = m.timeWaitList.drop (overflow m.timeWaitList) ++
    if k ∈ (m.timeWaitList.take (overflow m.timeWaitList)).map (·.2) then []
    else [(now + timeWaitDuration, k)]
  waits : ∀ q k', m'.WaitsFor q k' ↔ (m.WaitsFor q k' ∨ (q = p ∧ k' = k)) ∧
    k' ∉ (m.timeWaitList.take (overflow m.timeWaitList)).map (·.2)
  drained : m.Drained → m'.Drained

/-- Into TIME_WAIT, from another state. -/
theorem enters_of_store (hcalm : Calm m m') (hp : m'.heap p = some t) (hs : t.state ≠ .timeWait)
    {c : Conn σ} (hptr : c.ptr = p) (htuple : c.tcb.tTuple = t.tTuple)
    (hs' : c.tcb.state = .timeWait) (hwf : (m'.store c).WellFormed) (env : Env) :
    Enters env.now p t.tTuple m ((m'.store c).startTimeWaitTimer env p) := by
  subst hptr
  have hself := store_heap_self m' c
  obtain ⟨hlist, hwaits, hdrained⟩ :=
    startTimeWaitTimer_effect hwf env ⟨c.tcb, hself, hs', htuple⟩
  rw [show (m'.store c).timeWaitList = m.timeWaitList from hcalm.list] at hlist hwaits
  refine ⟨hlist, fun q k => (hwaits q k).trans (and_congr_left fun _ => ?_),
    fun hd => hdrained fun q u hne hu hw => ?_⟩
  · rw [← hcalm.waits q k]
    rcases eq_or_ne q c.ptr with rfl | hne
    · rw [waitsFor_of_heap hself, waitsFor_of_heap hp, htuple]
      constructor
      · rintro ⟨-, hk⟩
        exact Or.inr ⟨rfl, hk.symm⟩
      · rintro (⟨hw, -⟩ | ⟨-, hk⟩)
        · exact absurd hw hs
        · exact ⟨hs', hk.symm⟩
    · rw [WaitsFor, store_heap_ne m' hne]
      exact (or_iff_left fun h => hne h.1).symm
  · rw [store_heap_ne m' hne] at hu
    exact hcalm.drained hd q u hu hw

theorem Calm.notifyConnect (hwf : m.WellFormed) (p : Ptr) (error : Int) :
    Calm m (m.notifyConnect x.ctx p error) := by
  unfold TCPConnectionManager.notifyConnect
  split
  · exact .refl m
  · exact (Calm.log m _).trans ((path_invoke hwf _ _ none).calm (hwf.log _))

/-- The handshake ends away from TIME_WAIT. -/
theorem Calm.establish (hwf : m.WellFormed) (hx : x.seg = some seg) (hp : m.heap p = some t)
    (hack : seg.isAck = true) {t' : TCB σ} {c : Conn σ} (hopening : Handshake seg t t')
    (hpath : Conn.Path x.seg ⟨p, t', m.trace⟩ c) (huna : c.tcb.sndUna = t.iss + 1) :
    Calm m (((m.store c).establish p).notifyConnect x.ctx p 0) := by
  have hmove := hwf.move (move_establish (o := m) hwf hx hp hack hopening hpath huna)
  have hwf' : ((m.store c).establish p).WellFormed := hmove.congr rfl rfl rfl rfl rfl
  refine Calm.trans ?_ (.notifyConnect hwf' p 0)
  rw [establish_store hpath.ptr]
  refine (Calm.store_awake (c := ⟨p, _, _⟩) hp rfl ?_ (fun h => by cases h)).trans (.of_heap rfl rfl)
  rcases hopening.opening with hs | hs <;> rw [hs] <;> decide

theorem handleSynSent_calm (hwf : m.WellFormed) (hx : x.seg = some seg) (hp : m.heap p = some t)
    (hs : t.state = .synSent) : Calm m (m.handleSynSent x.ctx p seg) := by
  by_cases hflags : (seg.isSyn && seg.isAck) = true
  · obtain ⟨hsyn, hack⟩ := Bool.and_eq_true _ _ ▸ hflags
    by_cases hnum : seg.ackNum = t.iss + 1
    · obtain ⟨hpath, huna, heq⟩ := handleSynSent_synAck hwf hp hs hx hsyn hack hnum
      rw [heq]
      exact .establish hwf hx hp hack (.synSent hs hsyn hnum) hpath huna
    · rw [handleSynSent, if_pos hflags, test_of_heap hp, if_pos (bne_iff_ne.mpr hnum)]
      exact .log m _
  · rw [handleSynSent, if_neg hflags]
    split
    · dsimp only
      rw [modify_of_heap hp, on_store rfl _ (by simp)]
      exact .store_awake hp (by simp) (by rw [hs]; decide) (fun h => by cases h)
    · exact .refl m

/-- The peer's FIN takes the connection to CLOSE_WAIT. -/
theorem handleEstablished_calm (hready : Ready m p) (hin : m.InState p s)
    (hs : TCPState.established.Reaches s) (hx : x.seg = some seg) :
    Calm m (m.handleEstablished x.ctx p seg) := by
  unfold handleEstablished
  have hwork := path_intake hready hx
  have hcalm := hwork.calm hready.wellFormed
  obtain ⟨s', hreach, hin'⟩ := hwork.kept hready.wellFormed hin
    (TCPState.ne_synSent_of_isActive (hs.isActive rfl))
  have hready' := hready.work hwork
  dsimp only at hin' hready' hcalm ⊢
  generalize (m.handleAck x.ctx.toEnv p seg).handlePayload x.ctx p seg = m₁
    at hcalm hready' hin' ⊢
  split
  · rename_i hfin
    have hedge : FinEdge .established s' .closeWait := by
      rcases hs.trans hreach with rfl | ⟨-, rfl⟩
      · exact .established
      · exact .overtaken
    have hwf := Path.wellFormed (path_receiveFin (o := m) hin' x.ctx.toEnv hx hfin hedge).1
      hready'.wellFormed
    obtain ⟨t, hp, -, rfl⟩ := hin'
    have hawake : t.state ≠ .timeWait := by
      generalize t.state = s' at hedge
      cases hedge <;> decide
    refine hcalm.trans (Calm.trans ?_ ((path_notifyClose hwf p).calm hwf))
    rw [receiveFin_of_heap hp]
    exact .store_awake hp rfl hawake nofun
  · exact hcalm

theorem handleSynRcvd_calm (hwf : m.WellFormed) (hx : x.seg = some seg) (hrst : seg.isRst = false)
    (hp : m.heap p = some t) (hs : t.state = .synRcvd) :
    Calm m (m.handleSynRcvd x.ctx p seg) := by
  have hnotRst : ¬ seg.isRst = true := by rw [hrst]; exact Bool.false_ne_true
  cases hack : seg.isAck with
  | false =>
    rw [handleSynRcvd, if_neg hnotRst, hack, Bool.not_false, if_pos rfl]
    exact .refl m
  | true =>
    by_cases hrange : seqGt seg.ackNum t.sndUna = true ∧ seqGt seg.ackNum t.sndNxt = false
    · obtain ⟨hprocess, huna, heq⟩ :=
        handleSynRcvd_ack hwf hp hs hx hrst hack hrange.1 hrange.2
      have hopening : Handshake seg t t := .synRcvd hs hrange.1 hrange.2
      have hcalm := Calm.establish hwf hx hp hack hopening hprocess huna
      obtain ⟨-, hready, s, hreach, hin'⟩ :=
        path_establish (o := m) hwf hx hp hack hopening hprocess huna
      rw [heq]
      dsimp only
      split
      · exact hcalm.trans (handleEstablished_calm hready hin' hreach hx)
      · exact hcalm
    · rw [handleSynRcvd, if_neg hnotRst, hack, Bool.not_true, if_neg Bool.false_ne_true]
      split
      · exact .log m _
      · rename_i hinside
        rw [test_of_heap hp] at hinside
        exact absurd (by simpa using hinside) hrange

/-! ### Listening and resetting -/

/-- A SYN is calm, but for the connection it may overwrite. -/
theorem handleListen_effect (hwf : m.WellFormed) {lp : Ptr} {l : TCB σ} (hx : x.seg = some seg)
    (hrst : seg.isRst = false) (hnew : m.findTcb seg.tuple = none)
    (hlisten : m.findListeningTcb seg.dstPort = some lp) (hlp : m.heap lp = some l)
    (hs : l.state = .listen) : Calm m (m.handleListen x.ctx.toEnv lp seg) ∨
      (m.Overwrites x ∧ ∃ old, m.findTcb (m.filedUnder seg) = some old ∧
        Loses old m (m.handleListen x.ctx.toEnv lp seg)) := by
  by_cases hflags : (!seg.isSyn || seg.isAck) = true
  · simp only [handleListen, hlp, hflags, if_true]
    exact Or.inl (.refl m)
  obtain ⟨hsyn, hnack⟩ : seg.isSyn = true ∧ seg.isAck = false := by simpa using hflags
  by_cases hlimit : maxConnections ≤ m.connections.length
  · simp only [handleListen, hlp, hflags, hlimit, if_true]
    exact Or.inl (.refl m)
  have hlimit' : m.connections.length < maxConnections := Nat.not_le.mp hlimit
  cases hold : m.findTcb (m.filedUnder seg) with
  | none =>
    rw [handleListen_of_free hwf x.ctx.toEnv hsyn hnack hlisten hlp hlimit' hold]
    exact Or.inl (.alloc hwf (fun h => by cases h) rfl rfl)
  | some old =>
    obtain ⟨t, hp, htuple, -⟩ := hwf.find hold
    have hk := hwf.findTcb_iff.mp hold
    refine Or.inr ⟨⟨seg, lp, hx, hrst, hsyn, hnack, hnew,
      ⟨hwf.findListeningTcb_iff.mp hlisten, l, hlp, hs⟩, hlimit',
      Option.isSome_iff_exists.mpr ⟨old, hold⟩⟩, old, rfl, ?_⟩
    rw [handleListen_of_found hwf x.ctx.toEnv hsyn hnack hlisten hlp hlimit' rfl hold]
    have hlose := loses_remove hwf hp (htuple.symm ▸ hk) .replaced
    rw [htuple] at hlose
    exact hlose.calm_after
      (.alloc ((hwf.endTcb _).eraseConnection _) (fun h => by cases h) rfl rfl)

/-- A RST ends the connection it is for, if its number is in the window. -/
theorem handleRst_effect (hwf : m.WellFormed) (hp : m.heap p = some t)
    (hwnd : rstInWindow seg t = true) : Loses p m (m.handleRst x.ctx p seg) := by
  obtain ⟨m₁, hwork, hwf₁, hclosed, heq⟩ := handleRst_accepted (x := x) hwf hp hwnd
  have hlose := (loses_resetTcb hp).calm_after (hwork.calm (hwf.resetTcb p))
  rw [heq]
  refine hlose.calm_after ?_
  rcases hwf₁.deleteTcb_closed hclosed with ⟨-, hdel⟩ | ⟨u, hu, hs, ⟨hk, hdel⟩ | ⟨port, hl, hdel⟩⟩
  · rw [hdel]
    exact .refl m₁
  · rw [hdel]
    refine .eraseConnection fun q v hq hv => ?_
    have hqp : q = p := Option.some.inj (hq.symm.trans (hwf₁.findTcb_iff.mpr hk))
    rw [hclosed v (hqp ▸ hv)]
    decide
  · rw [hdel]
    exact .eraseListener hwf₁ port

/-! ### Closing -/

/-- The segment can complete the close of the connection `t`. -/
def completesClose (seg : TCPSegment) (t : TCB σ) : Bool :=
  match t.state with
  | .finWait1 | .finWait2 => seg.isFin
  | .closing => seg.isAck
  | _ => false

/-- What a handler that can complete a close comes to. -/
def Closes (x : Input σ) (seg : TCPSegment) (p : Ptr) (t : TCB σ) (m m' : TCPConnectionManager σ) :
    Prop :=
  Calm m m' ∨ (completesClose seg t = true ∧ Enters x.ctx.now p t.tTuple m m')

/-- The peer's FIN in `FIN_WAIT_1` or `FIN_WAIT_2`, once its ACK and data are processed. -/
theorem enters_of_receiveFin (hcalm : Calm m m') (hready : Ready m' p) (hin : m'.InState p s)
    (htuple : ∀ u, m'.heap p = some u → u.tTuple = k) (hx : x.seg = some seg)
    (hfin : m'.finInOrder p seg = true) (hedge : FinEdge s s .timeWait) :
    seg.isFin = true ∧ Enters x.ctx.now p k m
      ((m'.receiveFin x.ctx.toEnv p s .timeWait).startTimeWaitTimer x.ctx.toEnv p) := by
  have hwf := Path.wellFormed (path_receiveFin (o := m) hin x.ctx.toEnv hx hfin hedge).1
    hready.wellFormed
  obtain ⟨t, hp, -, rfl⟩ := hin
  refine ⟨((finInOrder_iff hp seg).mp hfin).1, ?_⟩
  have hawake : t.state ≠ .timeWait := by
    generalize t.state = s at hedge
    cases hedge <;> decide
  dsimp only at hwf
  rw [receiveFin_of_heap hp] at hwf ⊢
  rw [← htuple t hp]
  exact enters_of_store hcalm hp hawake rfl rfl rfl hwf x.ctx.toEnv

/-- Behind the ACK and the data of a segment the connection has its tuple. -/
theorem intake_tuple (hwf : m.WellFormed) (hp : m.heap p = some t) {m₁ : TCPConnectionManager σ}
    (hwork : WorkPath x ⟨m, none⟩ ⟨m₁, none⟩) : ∀ u, m₁.heap p = some u → u.tTuple = t.tTuple := by
  intro u hu
  obtain ⟨v, hv, htuple, -⟩ := hwork.back (hwf.fresh p t hp) hu
  rw [hp] at hv
  cases hv
  exact htuple

theorem handleFinWait1_closes (hwf : m.WellFormed) (hx : x.seg = some seg) (hp : m.heap p = some t)
    (hin : m.InState p .finWait1) (hs : t.state = .finWait1) :
    Closes x seg p t m (m.handleFinWait1 x.ctx p seg) := by
  have hready : Ready m p := hin.ready hwf rfl
  have hwork := path_intake hready hx
  have hcalm := hwork.calm hwf
  have htuple := intake_tuple hwf hp hwork
  obtain ⟨hready', hin'⟩ := path_intake_inState hready hin rfl rfl hx
  unfold handleFinWait1
  dsimp only at hcalm ⊢
  generalize (seg.isAck && (m.handleAck x.ctx.toEnv p seg).allAcked p) = ourFinAcked
  generalize (m.handleAck x.ctx.toEnv p seg).handlePayload x.ctx p seg = m₁
    at hcalm htuple hready' hin' ⊢
  split
  · rename_i hfin
    split
    · obtain ⟨hisFin, henters⟩ :=
        enters_of_receiveFin hcalm hready' hin' htuple hx hfin .finWait1
      refine Or.inr ⟨?_, henters⟩
      rw [completesClose, hs]
      exact hisFin
    · obtain ⟨u, hu, -, hstate⟩ := hin'
      rw [receiveFin_of_heap hu]
      exact Or.inl (hcalm.trans (.store_awake hu rfl (by rw [hstate]; decide) nofun))
  · split
    · obtain ⟨u, hu, -, hstate⟩ := hin'
      rw [on_of_heap hu]
      exact Or.inl (hcalm.trans (.store_awake hu rfl (by rw [hstate]; decide) nofun))
    · exact Or.inl hcalm

theorem handleFinWait2_closes (hwf : m.WellFormed) (hx : x.seg = some seg) (hp : m.heap p = some t)
    (hin : m.InState p .finWait2) (hs : t.state = .finWait2) :
    Closes x seg p t m (m.handleFinWait2 x.ctx p seg) := by
  have hready : Ready m p := hin.ready hwf rfl
  have hwork := path_intake hready hx
  have hcalm := hwork.calm hwf
  have htuple := intake_tuple hwf hp hwork
  obtain ⟨hready', hin'⟩ := path_intake_inState hready hin rfl rfl hx
  unfold handleFinWait2
  dsimp only at hcalm ⊢
  generalize (m.handleAck x.ctx.toEnv p seg).handlePayload x.ctx p seg = m₁
    at hcalm htuple hready' hin' ⊢
  split
  · rename_i hfin
    obtain ⟨hisFin, henters⟩ := enters_of_receiveFin hcalm hready' hin' htuple hx hfin .finWait2
    refine Or.inr ⟨?_, henters⟩
    rw [completesClose, hs]
    exact hisFin
  · exact Or.inl hcalm

theorem handleClosing_closes (hwf : m.WellFormed) (hx : x.seg = some seg) (hp : m.heap p = some t)
    (hin : m.InState p .closing) (hs : t.state = .closing) :
    Closes x seg p t m (m.handleClosing x.ctx p seg) := by
  have hready : Ready m p := hin.ready hwf rfl
  have hwork := path_handleAck hready x.ctx.toEnv hx
  have hcalm := hwork.calm hwf
  have htuple := intake_tuple hwf hp hwork
  obtain ⟨hready', hin'⟩ := path_handleAck_inState hready hin rfl rfl x.ctx.toEnv hx
  unfold handleClosing
  dsimp only at hcalm ⊢
  generalize m.handleAck x.ctx.toEnv p seg = m₁ at hcalm htuple hready' hin' ⊢
  split
  · rename_i hacked
    have hwf' := (path_finAcked (o := m) (x := x) hready'.wellFormed hin' .closing).2.1
    obtain ⟨u, hu, -, hstate⟩ := hin'
    refine Or.inr ⟨?_, ?_⟩
    · rw [completesClose, hs]
      exact (Bool.and_eq_true _ _ ▸ hacked).1
    · rw [on_of_heap hu] at hwf' ⊢
      rw [← htuple u hu]
      exact enters_of_store hcalm hu (by rw [hstate]; decide) rfl rfl rfl hwf' x.ctx.toEnv
  · exact Or.inl hcalm

theorem handleLastAck_calm (hwf : m.WellFormed) (hx : x.seg = some seg)
    (hin : m.InState p .lastAck) : Calm m (m.handleLastAck x.ctx p seg) := by
  have hready : Ready m p := hin.ready hwf rfl
  have hcalm := (path_handleAck hready x.ctx.toEnv hx).calm hwf
  obtain ⟨hready', hin'⟩ := path_handleAck_inState hready hin rfl rfl x.ctx.toEnv hx
  unfold handleLastAck
  dsimp only
  split
  · obtain ⟨t, hp, hk, hs⟩ := hin'
    rw [hready'.wellFormed.deleteTcb_endTcb hp hk]
    refine hcalm.trans ((loses_remove hready'.wellFormed hp hk .lastAck).calm fun k hw => ?_)
    rw [waitsFor_of_heap hp, hs] at hw
    cases hw.1
  · exact hcalm

end TCPConnectionManager

end NeuStack
