import NeuStack.TimeWaitEffects

/-! # TIME_WAIT, step by step

What a step of the manager comes to for the connections in TIME_WAIT and for the
list of their deadlines: `step_effect`.  All that is said about TIME_WAIT is
derived from it.
-/
namespace NeuStack
variable {σ : Type}

namespace TCPConnectionManager
variable {m m' : TCPConnectionManager σ} {p q : Ptr} {t : TCB σ} {k : TCPTuple}

/-! ## The steps -/

/-- The input is a retransmitted FIN for the connection at `p`, in TIME_WAIT. -/
def renews (m : TCPConnectionManager σ) (x : Input σ) (p : Ptr) : Bool :=
  match x.op with
  | .segment seg => !seg.isRst && seg.isFin && m.findTcb seg.tuple == some p && m.waiting p
  | _ => false

/-- The input is a RST for the connection at `p`, with a number in its window. -/
def ResetBy (m : TCPConnectionManager σ) (x : Input σ) (p : Ptr) : Prop :=
  ∃ seg t, x.op = .segment seg ∧ seg.isRst = true ∧ m.findTcb seg.tuple = some p ∧
    m.heap p = some t ∧ rstInWindow seg t = true

/-- The input is no tick, and no retransmitted FIN. -/
def RenewsNothing (m : TCPConnectionManager σ) (x : Input σ) : Prop :=
  (∀ order, x.op ≠ .timer order) ∧ ∀ p, m.renews x p = false

theorem renews_iff {x : Input σ} : m.renews x p = true ↔ ∃ seg, x.op = .segment seg ∧
    seg.isRst = false ∧ seg.isFin = true ∧ m.findTcb seg.tuple = some p ∧ m.waiting p = true := by
  unfold renews
  cases hop : x.op with
  | segment seg =>
    simp only [Bool.and_eq_true, Bool.not_eq_true', beq_iff_eq, Op.segment.injEq, exists_eq_left']
    exact ⟨fun ⟨⟨⟨h1, h2⟩, h3⟩, h4⟩ => ⟨h1, h2, h3, h4⟩, fun ⟨h1, h2, h3, h4⟩ => ⟨⟨⟨h1, h2⟩, h3⟩, h4⟩⟩
  | call c => exact iff_of_false nofun (fun ⟨_, h, _⟩ => nomatch h)
  | timer order => exact iff_of_false nofun (fun ⟨_, h, _⟩ => nomatch h)

/-- **What a step does to TIME_WAIT.** -/
inductive Effect (m : TCPConnectionManager σ) (x : Input σ) (m' : TCPConnectionManager σ) : Prop
  | calm (h : Calm m m') (hnot : m.RenewsNothing x)
  | enters {seg : TCPSegment} {p : Ptr} {t : TCB σ} (hx : x.op = .segment seg)
      (hrst : seg.isRst = false) (hfind : m.findTcb seg.tuple = some p) (hp : m.heap p = some t)
      (hcloses : completesClose seg t = true) (h : Enters x.ctx.now p t.tTuple m m')
  | renewed {p : Ptr} {k : TCPTuple} (hrenew : m.renews x p = true) (hw : m.WaitsFor p k)
      (hlist : m'.timeWaitList =
        Deadlines.renew (x.ctx.now + timeWaitDuration) k m.timeWaitList)
      (hwaits : ∀ q k', m'.WaitsFor q k' ↔ m.WaitsFor q k') (hdrained : m.Drained → m'.Drained)
  | reset {p : Ptr} (hreset : m.ResetBy x p) (h : Loses p m m')
  | overwritten {seg : TCPSegment} {old : Ptr} (hx : x.seg = some seg) (hover : m.Overwrites x)
      (hold : m.findTcb (m.filedUnder seg) = some old) (h : Loses old m m')
  | tick {order : List TCPTuple} (hx : x.op = .timer order)
      (hlist : m'.timeWaitList = m.timeWaitList.filter (fun entry => x.ctx.now < entry.1))
      (hwaits : ∀ q k, m'.WaitsFor q k ↔
        m.WaitsFor q k ∧ ∀ d ∈ Deadlines.due k m.timeWaitList, x.ctx.now < d)
      (hdrained : m'.Drained)

/-- Every connection in TIME_WAIT has an entry in the list. -/
def Listed (m : TCPConnectionManager σ) : Prop :=
  ∀ p k, m.WaitsFor p k → k ∈ m.timeWaitList.map (·.2)

variable [ICongestionControl σ] {x : Input σ} {seg : TCPSegment}

/-! ### The tick -/

/-- Giving up a connection is nothing to the ones that wait: they have nothing to retransmit. -/
theorem checkRetransmit_calm (hwf : m.WellFormed) (hd : m.Drained) (hp : m.heap p = some t) :
    Calm m (m.checkRetransmit x.ctx p) := by
  unfold checkRetransmit
  rw [test_of_heap hp]
  split
  · rename_i hdue
    have hawake : ∀ k, ¬ m.WaitsFor p k := by
      intro k hw
      rw [waitsFor_of_heap hp] at hw
      rw [retransmitDue, hd p t hp hw.1] at hdue
      cases hdue
    have hcount : WorkPath x ⟨m, none⟩ ⟨m.on p (·.countRetransmit), none⟩ :=
      path_on none fun u hu => .countRetransmit _
    dsimp only
    split
    · have hwork := hcount.trans (path_notifyClose (hcount.wellFormed hwf) p)
      have hcalm := WorkPath.calm hwork hwf
      dsimp only at hcalm
      generalize (m.on p (·.countRetransmit)).notifyClose x.ctx p = m₁ at hcalm
      cases hu : m₁.heap p with
      | none => rwa [endTcb, on_of_freed hu]
      | some u =>
        refine hcalm.trans ((loses_endTcb hu .gaveUp).calm fun k hw => ?_)
        exact hawake k ((hcalm.waits p k).mp hw)
    · have hwork : WorkPath x ⟨m, none⟩
          ⟨(m.on p (·.countRetransmit)).on p (·.retransmit x.ctx.toEnv), none⟩ :=
        hcount.trans (path_on none fun u hu => .retransmit x.ctx.toEnv _)
      exact hwork.calm hwf
  · exact .refl m

/-- One connection of the sweep; a tuple that is to be deleted has nobody waiting. -/
theorem visit_calm (s : TCPConnectionManager σ × List TCPTuple) (hwf : s.1.WellFormed)
    (hd : s.1.Drained) (tuple : TCPTuple) : Calm s.1 (visit x.ctx s tuple).1 ∧
      ∀ k ∈ (visit x.ctx s tuple).2, k ∈ s.2 ∨ ∀ p, ¬ (visit x.ctx s tuple).1.WaitsFor p k := by
  unfold visit
  split
  · exact ⟨.refl _, fun k hk => Or.inl hk⟩
  rename_i p hfind
  obtain ⟨t, hp, rfl, -⟩ := hwf.find hfind
  have hcalm := checkRetransmit_calm (x := x) hwf hd hp
  have hwf₁ := (path_checkRetransmit (o := s.1) (x := x) hwf hp
    (hwf.findTcb_iff.mp hfind)).1.wellFormed hwf
  dsimp only at hwf₁
  generalize s.1.checkRetransmit x.ctx p = m₁ at hcalm hwf₁
  dsimp only
  split
  · rename_i hclosed
    refine ⟨hcalm, fun k hk => ?_⟩
    rcases List.mem_append.mp hk with hold | hnew
    · exact Or.inl hold
    · rw [List.mem_singleton] at hnew
      subst hnew
      refine Or.inr fun q hw => ?_
      have hq : q = p := Option.some.inj
        ((((hcalm.waits q _).mp hw).findTcb hwf).symm.trans hfind)
      obtain ⟨u, hu, hs, -⟩ := hw
      rw [hq] at hu
      rw [test_of_heap hu, hs] at hclosed
      cases hclosed
  · have hwork : WorkPath x ⟨m₁, none⟩ ⟨(m₁.on p (·.checkDelayedAck x.ctx.toEnv)).on p
        (·.checkZeroWindowProbe x.ctx.toEnv), none⟩ :=
      Relation.ReflTransGen.trans (path_on none fun u hu => .checkDelayedAck x.ctx.toEnv _)
        (path_on none fun u hu => .checkZeroWindowProbe x.ctx.toEnv _)
    exact ⟨hcalm.trans (hwork.calm hwf₁), fun k hk => Or.inl hk⟩

theorem sweep_calm (order : List TCPTuple) (s : TCPConnectionManager σ × List TCPTuple)
    (hwf : s.1.WellFormed) (hd : s.1.Drained) (hclosed : ∀ k ∈ s.2, s.1.ClosedAt k)
    (hnobody : ∀ k ∈ s.2, ∀ p, ¬ s.1.WaitsFor p k) :
    Calm s.1 (order.foldl (visit x.ctx) s).1 ∧
      ∀ k ∈ (order.foldl (visit x.ctx) s).2, ∀ p, ¬ (order.foldl (visit x.ctx) s).1.WaitsFor p k := by
  induction order generalizing s with
  | nil => exact ⟨.refl _, hnobody⟩
  | cons tuple order ih =>
    obtain ⟨hcalm, hnew⟩ := visit_calm (x := x) s hwf hd tuple
    obtain ⟨hpath, hclosed'⟩ := path_visit (o := s.1) (x := x) s hwf hclosed tuple
    obtain ⟨hcalm', hrest⟩ := ih _ (hpath.wellFormed hwf) (hcalm.drained hd) hclosed'
      fun k hk p hw => (hnew k hk).elim (fun hold => hnobody k hold p ((hcalm.waits p k).mp hw))
        fun hnone => hnone p hw
    exact ⟨hcalm.trans hcalm', hrest⟩

omit [ICongestionControl σ] in
/-- Deleting entries under which nobody waits. -/
theorem eraseAll_calm (l : List TCPTuple) (hwf : m.WellFormed)
    (hnobody : ∀ k ∈ l, ∀ p, ¬ m.WaitsFor p k) :
    Calm m (l.foldl eraseConnection m) ∧ (l.foldl eraseConnection m).WellFormed := by
  induction l generalizing m with
  | nil => exact ⟨.refl m, hwf⟩
  | cons k l ih =>
    have hcalm : Calm m (m.eraseConnection k) := by
      refine .eraseConnection fun p t hfind hp hs => ?_
      obtain ⟨u, hu, htuple, -⟩ := hwf.find hfind
      rw [hp] at hu
      cases hu
      exact hnobody k (List.mem_cons_self ..) p ⟨t, hp, hs, htuple⟩
    obtain ⟨hcalm', hwf'⟩ := ih (hwf.eraseConnection k) fun k' hk' p hw =>
      hnobody k' (List.mem_cons_of_mem _ hk') p ((hcalm.waits p k').mp hw)
    exact ⟨hcalm.trans hcalm', hwf'⟩

/-- **The tick** ends who waits under a deadline that has come. -/
theorem onTimer_effect (hwf : m.WellFormed) (hd : m.Drained) (order : List TCPTuple) :
    (m.onTimer x.ctx order).timeWaitList =
        m.timeWaitList.filter (fun entry => x.ctx.now < entry.1) ∧
      (∀ q k, (m.onTimer x.ctx order).WaitsFor q k ↔
        m.WaitsFor q k ∧ ∀ d ∈ Deadlines.due k m.timeWaitList, x.ctx.now < d) ∧
      (m.onTimer x.ctx order).Drained := by
  unfold onTimer
  dsimp only
  generalize (if order.isPerm (m.connections.map (·.1)) then order
    else m.connections.map (·.1)) = keys
  have hsweepPath := (path_sweep (o := m) (x := x) keys (m, []) hwf (fun _ h => nomatch h)).1
  obtain ⟨hsweep, hnobody⟩ := sweep_calm (x := x) keys (m, []) hwf hd (fun _ h => nomatch h)
    (fun _ h => nomatch h)
  have hwf₁ := hsweepPath.wellFormed hwf
  dsimp only at hwf₁ hsweep
  generalize keys.foldl (visit x.ctx) (m, []) = swept at hwf₁ hsweep hnobody
  obtain ⟨herase, hwf₂⟩ := eraseAll_calm swept.2 hwf₁ hnobody
  have hcalm := hsweep.trans herase
  generalize swept.2.foldl eraseConnection swept.1 = m₂ at hwf₂ hcalm
  obtain ⟨hlist, hwaits, hdrained⟩ := expireAll_effect hwf₂ x.ctx.now m₂.timeWaitList
  rw [hcalm.list] at hlist hwaits hdrained ⊢
  refine ⟨?_, fun q k => ?_, hdrained (hcalm.drained hd)⟩
  · rw [hlist]
  · rw [← hcalm.waits q k]
    exact hwaits q k

/-! ### The segments -/

omit [ICongestionControl σ] in
/-- A segment renews at most the connection it is for. -/
theorem renewsNothing (hop : x.op = .segment seg)
    (hnot : ∀ p, m.findTcb seg.tuple = some p → m.waiting p = true → seg.isRst = false →
      seg.isFin = false) : m.RenewsNothing x := by
  refine ⟨fun order h => ?_, fun p => ?_⟩
  · rw [hop] at h
    cases h
  rw [← Bool.not_eq_true, renews_iff]
  rintro ⟨seg', hop', hrst, hfin, hfind, hw⟩
  rw [hop] at hop'
  cases hop'
  rw [hnot p hfind hw hrst] at hfin
  cases hfin

/-- A segment that is for no connection goes to a listener, or nowhere. -/
theorem onSegmentReceived_effect_none (hwf : m.WellFormed) (hop : x.op = .segment seg)
    (hx : x.seg = some seg) (hnew : m.findTcb seg.tuple = none) :
    Effect m x (m.onSegmentReceived x.ctx seg) := by
  have hnot : m.RenewsNothing x := renewsNothing hop fun p hfind => by
    rw [hnew] at hfind
    cases hfind
  unfold onSegmentReceived
  rw [hnew]
  cases hlisten : m.findListeningTcb seg.dstPort with
  | none =>
    show Effect m x (if seg.isRst then m else m.sendRst seg)
    split
    · exact .calm (.refl m) hnot
    · exact .calm (.log m _) hnot
  | some lp =>
    obtain ⟨l, hlp, -, hs⟩ := hwf.findListening hlisten
    have hawake : ∀ k, ¬ m.WaitsFor lp k := by
      intro k hw
      rw [waitsFor_of_heap hlp] at hw
      rcases hs with hs | hs <;> rw [hs] at hw <;> cases hw.1
    show Effect m x (if seg.isRst then m.handleRst x.ctx lp seg else _)
    split
    · cases hwnd : rstInWindow seg l with
      | true => exact .calm ((handleRst_effect hwf hlp hwnd).calm hawake) hnot
      | false =>
        rw [handleRst, test_of_heap hlp, hwnd]
        exact .calm (.refl m) hnot
    · rename_i hrst
      have hrst : seg.isRst = false := by simpa using hrst
      rw [hlp]
      dsimp only
      rcases hs with hs | hs <;> rw [hs]
      · rcases handleListen_effect hwf hx hrst hnew hlisten hlp hs with
          hcalm | ⟨hover, old, hold, hlose⟩
        · exact .calm hcalm hnot
        · exact .overwritten hx hover hold hlose
      · show Effect m x (m.handleClosed seg)
        rw [handleClosed, hrst]
        exact .calm (.log m _) hnot

/-- **A segment for a connection.** -/
theorem onSegmentReceived_effect_some (hwf : m.WellFormed) (hlisted : m.Listed)
    (hop : x.op = .segment seg) (hx : x.seg = some seg) (hfind : m.findTcb seg.tuple = some p) :
    Effect m x (m.onSegmentReceived x.ctx seg) := by
  obtain ⟨t, hp, htuple, hl⟩ := hwf.find hfind
  have hk : (t.tTuple, p) ∈ m.connections := htuple.symm ▸ hwf.findTcb_iff.mp hfind
  unfold onSegmentReceived
  rw [hfind]
  show Effect m x (if seg.isRst then m.handleRst x.ctx p seg else _)
  split
  · rename_i hrst
    cases hwnd : rstInWindow seg t with
    | true =>
      exact .reset ⟨seg, t, hop, hrst, hfind, hp, hwnd⟩ (handleRst_effect hwf hp hwnd)
    | false =>
      rw [handleRst, test_of_heap hp, hwnd]
      exact .calm (.refl m) (renewsNothing hop fun _ _ _ h => by rw [hrst] at h; cases h)
  · rename_i hrst
    have hrst : seg.isRst = false := by simpa using hrst
    -- a segment for a connection in another state renews nothing
    have hnot : t.state ≠ .timeWait → m.RenewsNothing x := by
      refine fun hs => renewsNothing hop fun q hq hw => ?_
      obtain ⟨k, hw⟩ := waiting_iff.mp hw
      rw [Option.some.inj (hq.symm.trans hfind), waitsFor_of_heap hp] at hw
      exact absurd hw.1 hs
    have hcloses : ∀ m', t.state ≠ .timeWait → Closes x seg p t m m' → Effect m x m' := by
      rintro m' hs (hcalm | ⟨hcompletes, henters⟩)
      · exact .calm hcalm (hnot hs)
      · exact .enters hop hrst hfind hp hcompletes henters
    have hin : ∀ s, t.state = s → m.InState p s := fun s hs => ⟨t, hp, hk, hs⟩
    rw [hp]
    dsimp only
    cases hs : t.state with
    | closed =>
      unfold handleClosed
      rw [hrst]
      exact .calm (.log m _) (hnot (by rw [hs]; decide))
    | listen => exact absurd hs hl
    | synSent => exact .calm (handleSynSent_calm hwf hx hp hs) (hnot (by rw [hs]; decide))
    | synRcvd => exact .calm (handleSynRcvd_calm hwf hx hrst hp hs) (hnot (by rw [hs]; decide))
    | established =>
      exact .calm (handleEstablished_calm ((hin _ hs).ready hwf rfl) (hin _ hs) (Or.inl rfl) hx)
        (hnot (by rw [hs]; decide))
    | finWait1 =>
      exact hcloses _ (by rw [hs]; decide) (handleFinWait1_closes hwf hx hp (hin _ hs) hs)
    | finWait2 =>
      exact hcloses _ (by rw [hs]; decide) (handleFinWait2_closes hwf hx hp (hin _ hs) hs)
    | closeWait =>
      exact .calm ((path_handleAck ((hin _ hs).ready hwf rfl) x.ctx.toEnv hx).calm hwf)
        (hnot (by rw [hs]; decide))
    | closing =>
      exact hcloses _ (by rw [hs]; decide) (handleClosing_closes hwf hx hp (hin _ hs) hs)
    | lastAck =>
      exact .calm (handleLastAck_calm hwf hx (hin _ hs)) (hnot (by rw [hs]; decide))
    | timeWait =>
      show Effect m x (m.handleTimeWait x.ctx p seg)
      unfold handleTimeWait
      split
      · rename_i hfin
        have hwait : m.WaitsFor p t.tTuple := ⟨t, hp, hs, rfl⟩
        have hwork : WorkPath x ⟨m, none⟩
            ⟨m.on p (·.sendSegment x.ctx.toEnv TCPFlags.ack []), none⟩ :=
          path_on_active ((hin _ hs).ready hwf rfl) fun t hact => .ack _ _ (Or.inl hact)
        have hcalm := hwork.calm hwf
        dsimp only at hcalm
        generalize m.on p (·.sendSegment x.ctx.toEnv TCPFlags.ack []) = m₁ at hcalm ⊢
        rw [restartTimeWaitTimer_effect x.ctx.toEnv ((hcalm.waits p _).mpr hwait)
          (by rw [hcalm.list]; exact hlisted p _ hwait)]
        have hrenew : m.renews x p = true :=
          renews_iff.mpr ⟨seg, hop, hrst, hfin, hfind, waiting_iff.mpr ⟨_, hwait⟩⟩
        refine .renewed hrenew hwait ?_ hcalm.waits hcalm.drained
        show Deadlines.renew _ _ m₁.timeWaitList = _
        rw [hcalm.list]
      · rename_i hfin
        exact .calm (.refl m) (renewsNothing hop fun _ _ _ _ => by simpa using hfin)

/-- **The effect of a step.** -/
theorem step_effect (hwf : m.WellFormed) (hd : m.Drained) (hlisted : m.Listed) (x : Input σ) :
    Effect m x (m.step x) := by
  unfold TCPConnectionManager.step
  cases hop : x.op with
  | call a =>
    have hpath := (path_call hwf x.ctx.toEnv a).workPath (x := x) (Or.inl hop) none
    refine .calm (hpath.calm hwf) ⟨fun order h => ?_, fun p => ?_⟩
    · rw [hop] at h
      cases h
    · rw [renews, hop]
  | segment seg =>
    have hx : x.seg = some seg := by rw [Input.seg, hop]
    cases hfind : m.findTcb seg.tuple with
    | none => exact onSegmentReceived_effect_none hwf hop hx hfind
    | some p => exact onSegmentReceived_effect_some hwf hlisted hop hx hfind
  | timer order =>
    obtain ⟨hlist, hwaits, hdrained⟩ := onTimer_effect (x := x) hwf hd order
    exact .tick hop hlist hwaits hdrained

end TCPConnectionManager

end NeuStack
