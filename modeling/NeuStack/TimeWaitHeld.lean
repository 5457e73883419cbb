import NeuStack.TimeWait

/-! # How long TIME_WAIT is held

The list holds a deadline and a tuple, not a connection.  A RST, or a SYN that
overwrites, ends a connection and leaves its entry behind; the next connection of
the same tuple then has two, and goes with the first.  And an entry that is
renewed keeps its place, while room is made at the front.  In the runs that meet
neither, every connection in TIME_WAIT has one entry, which is due a full
duration after it entered, or was last renewed (`timeWait_held`).
-/
namespace NeuStack
variable {σ : Type}

namespace TCPConnectionManager

/-- The input may complete the close of the connection `t`. -/
def Completing (m : TCPConnectionManager σ) (x : Input σ) (t : TCB σ) : Prop :=
  ∃ seg p, x.op = .segment seg ∧ seg.isRst = false ∧ m.findTcb seg.tuple = some p ∧
    m.heap p = some t ∧ completesClose seg t = true

/-- **The entries of the list are not tangled** by the input `x`. -/
structure Untangled (m : TCPConnectionManager σ) (x : Input σ) : Prop where
  /-- No connection comes to TIME_WAIT while the list has an entry of its tuple,
  left behind by an earlier one. -/
  fresh : ∀ t, m.Completing x t → t.tTuple ∉ m.timeWaitList.map (·.2)
  /-- Nor while the list is full and a connection waits under its first entry whose
  deadline has been put off behind that of another. -/
  inOrder : ∀ t, m.Completing x t → maxTimeWaitEntries ≤ m.timeWaitList.length →
    ∀ entry ∈ m.timeWaitList.head?, (∃ p, m.WaitsFor p entry.2) →
      ∀ q k d, m.WaitsFor q k → (d, k) ∈ m.timeWaitList → entry.1 ≤ d
  /-- No SYN overwrites a connection in TIME_WAIT that is not due. -/
  kept : ∀ seg p, m.Overwrites x → x.seg = some seg → m.WaitsFor p (m.filedUnder seg) →
    ∃ d ≤ x.ctx.now, (d, m.filedUnder seg) ∈ m.timeWaitList

end TCPConnectionManager

/-- A manager under observation: `since` is when a connection came to TIME_WAIT, or was
last renewed there. -/
structure Watched (σ : Type) where
  mgr : TCPConnectionManager σ
  since : Ptr → Nat := fun _ => 0

namespace Watched
open TCPConnectionManager
variable [ICongestionControl σ]

/-- A step under observation. -/
def step (w : Watched σ) (x : Input σ) : Watched σ where
  mgr := w.mgr.step x
  since p :=
    if (w.mgr.step x).waiting p && (!w.mgr.waiting p || w.mgr.renews x p) then x.ctx.now
    else w.since p

omit [ICongestionControl σ] in
def init (localIp : UInt32) : Watched σ where
  mgr := .init localIp

omit [ICongestionControl σ] in
/-- The list is full, and no connection in TIME_WAIT has waited longer. -/
def LongestWaiting (w : Watched σ) (p : Ptr) : Prop :=
  maxTimeWaitEntries ≤ w.mgr.timeWaitList.length ∧
    ∀ q, w.mgr.waiting q = true → w.since p ≤ w.since q

/-- **TIME_WAIT is held** in the step for `x`: who leaves it has been there for its full
duration, was reset, or has waited longest; and a tick ends who is due. -/
structure Held (w : Watched σ) (x : Input σ) : Prop where
  notEarly : ∀ p, w.mgr.waiting p = true → (w.step x).mgr.waiting p = false →
    w.since p + timeWaitDuration ≤ x.ctx.now ∨ w.mgr.ResetBy x p ∨ w.LongestWaiting p
  notLate : ∀ p order, x.op = .timer order → w.mgr.waiting p = true →
    w.since p + timeWaitDuration ≤ x.ctx.now → (w.step x).mgr.waiting p = false

omit [ICongestionControl σ] in
/-- Every connection in TIME_WAIT has one entry, with its own deadline. -/
structure Timed (w : Watched σ) : Prop where
  wellFormed : w.mgr.WellFormed
  drained : w.mgr.Drained
  room : w.mgr.timeWaitList.length ≤ maxTimeWaitEntries
  due : ∀ p k, w.mgr.WaitsFor p k →
    Deadlines.due k w.mgr.timeWaitList = [w.since p + timeWaitDuration]

variable {w : Watched σ} {x : Input σ} {p q : Ptr} {k : TCPTuple}

omit [ICongestionControl σ] in
theorem Timed.listed (h : w.Timed) : w.mgr.Listed := fun p k hw =>
  List.mem_map.mpr ⟨_, Deadlines.mem_of_due (h.due p k hw), rfl⟩

/-! ## The observation -/

/-- Who waited before and is not renewed keeps its time. -/
theorem step_since_kept (hw : w.mgr.waiting p = true) (hnot : w.mgr.renews x p = false) :
    (w.step x).since p = w.since p := by
  unfold step
  dsimp only
  rw [hw, hnot, Bool.not_true, Bool.or_false, Bool.and_false, if_neg Bool.false_ne_true]

theorem step_since_entered (hw : w.mgr.waiting p = false)
    (hw' : (w.mgr.step x).waiting p = true) : (w.step x).since p = x.ctx.now := by
  unfold step
  dsimp only
  rw [hw, hw', Bool.not_false, Bool.true_or, Bool.and_true, if_pos rfl]

theorem step_since_renewed (hrenew : w.mgr.renews x p = true)
    (hw' : (w.mgr.step x).waiting p = true) : (w.step x).since p = x.ctx.now := by
  unfold step
  dsimp only
  rw [hrenew, hw', Bool.or_true, Bool.and_true, if_pos rfl]

omit [ICongestionControl σ] in
/-- An input renews at most one connection. -/
theorem renews_unique {m : TCPConnectionManager σ} (h : m.renews x p = true)
    (h' : m.renews x q = true) : p = q := by
  obtain ⟨seg, hop, -, -, hfind, -⟩ := renews_iff.mp h
  obtain ⟨seg', hop', -, -, hfind', -⟩ := renews_iff.mp h'
  rw [hop] at hop'
  cases hop'
  exact Option.some.inj (hfind.symm.trans hfind')

omit [ICongestionControl σ] in
theorem waiting_of {m : TCPConnectionManager σ} (h : m.WaitsFor p k) : m.waiting p = true :=
  waiting_iff.mpr ⟨k, h⟩

omit [ICongestionControl σ] in
/-- A segment that may complete a close renews nothing. -/
theorem renews_of_completing {m : TCPConnectionManager σ} {t : TCB σ} {seg : TCPSegment}
    (hop : x.op = .segment seg) (hfind : m.findTcb seg.tuple = some p) (hp : m.heap p = some t)
    (hcloses : completesClose seg t = true) : m.waiting p = false ∧ ∀ q, m.renews x q = false := by
  have hawake : m.waiting p = false := by
    rw [waiting, test_of_heap hp]
    cases hs : t.state <;> first | rfl | (rw [completesClose, hs] at hcloses; cases hcloses)
  refine ⟨hawake, (renewsNothing hop fun q hq hw => ?_).2⟩
  rw [Option.some.inj (hq.symm.trans hfind), hawake] at hw
  cases hw

/-! ## The steps -/

/-- A step that leaves the list alone, and of the connections that wait ends at most `p`. -/
theorem Timed.lose (h : w.Timed) (hnot : ∀ q, w.mgr.renews x q = false)
    (hlose : Loses p w.mgr (w.mgr.step x)) : (w.step x).Timed := by
  refine ⟨h.wellFormed.step x, hlose.drained h.drained, ?_, fun q k hw => ?_⟩
  · show (w.mgr.step x).timeWaitList.length ≤ _
    rw [hlose.list]
    exact h.room
  · have hw' := ((hlose.waits q k).mp hw).1
    show Deadlines.due k (w.mgr.step x).timeWaitList = _
    rw [hlose.list, step_since_kept (waiting_of hw') (hnot q), h.due q k hw']

theorem Timed.calm (h : w.Timed) (hnot : w.mgr.RenewsNothing x)
    (hcalm : Calm w.mgr (w.mgr.step x)) : (w.step x).Timed ∧ w.Held x := by
  refine ⟨⟨h.wellFormed.step x, hcalm.drained h.drained, ?_, fun q k hw => ?_⟩,
    ⟨fun p hw hgone => ?_, fun p order hop => absurd hop (hnot.1 order)⟩⟩
  · show (w.mgr.step x).timeWaitList.length ≤ _
    rw [hcalm.list]
    exact h.room
  · have hw' := (hcalm.waits q k).mp hw
    show Deadlines.due k (w.mgr.step x).timeWaitList = _
    rw [hcalm.list, step_since_kept (waiting_of hw') (hnot.2 q), h.due q k hw']
  · obtain ⟨k, hw⟩ := waiting_iff.mp hw
    exact absurd ((hcalm.waits p k).mpr hw) (waiting_eq_false.mp hgone k)

omit [ICongestionControl σ] in
theorem overflow_le {l : List (Nat × TCPTuple)} (h : l.length ≤ maxTimeWaitEntries) :
    overflow l ≤ 1 ∧ (overflow l ≠ 0 → maxTimeWaitEntries ≤ l.length) ∧
      (l.drop (overflow l)).length + 1 ≤ maxTimeWaitEntries := by
  rw [overflow, List.length_drop]
  unfold maxTimeWaitEntries at *
  omega

/-- A connection comes to TIME_WAIT; the first entry may have to make room. -/
theorem Timed.enter (h : w.Timed) (hok : w.mgr.Untangled x) {seg : TCPSegment} {t : TCB σ}
    (hop : x.op = .segment seg) (hrst : seg.isRst = false)
    (hfind : w.mgr.findTcb seg.tuple = some p) (hp : w.mgr.heap p = some t)
    (hcloses : completesClose seg t = true)
    (henter : Enters x.ctx.now p t.tTuple w.mgr (w.mgr.step x)) : (w.step x).Timed ∧ w.Held x := by
  obtain ⟨hawake, hnot⟩ := renews_of_completing hop hfind hp hcloses
  have hcompleting : w.mgr.Completing x t := ⟨seg, p, hop, hrst, hfind, hp, hcloses⟩
  have hfresh := hok.fresh t hcompleting
  obtain ⟨hover, hfull, hroom⟩ := overflow_le h.room
  generalize hl : w.mgr.timeWaitList = l at hfresh hover hfull hroom
  have hnotDropped : t.tTuple ∉ (l.take (overflow l)).map (·.2) := fun hmem =>
    hfresh ((List.take_sublist _ _).map _ |>.subset hmem)
  have hnotKept : t.tTuple ∉ (l.drop (overflow l)).map (·.2) := fun hmem =>
    hfresh ((List.drop_sublist _ _).map _ |>.subset hmem)
  obtain ⟨hlist, hwaits, hdrained⟩ := henter
  rw [hl] at hlist hwaits
  rw [if_neg hnotDropped] at hlist
  -- the other connections that wait are filed elsewhere
  have hne : ∀ q k, w.mgr.WaitsFor q k → t.tTuple ≠ k := by
    rintro q k hw rfl
    obtain ⟨u, hu, htuple, -⟩ := h.wellFormed.find hfind
    rw [hp] at hu
    cases hu
    have hq := hw.findTcb h.wellFormed
    rw [htuple, hfind] at hq
    cases hq
    exact waiting_eq_false.mp hawake _ hw
  refine ⟨⟨h.wellFormed.step x, hdrained h.drained, ?_, fun q k hw => ?_⟩,
    ⟨fun q hw hgone => ?_, fun q order htick => by rw [hop] at htick; cases htick⟩⟩
  · show (w.mgr.step x).timeWaitList.length ≤ _
    rw [hlist, List.length_append]
    exact hroom
  · have hw' : (w.mgr.step x).WaitsFor q k := hw
    show Deadlines.due k (w.mgr.step x).timeWaitList = _
    obtain ⟨hold | ⟨rfl, rfl⟩, hkept⟩ := (hwaits q k).mp hw
    · rw [hlist, Deadlines.due_start_ne _ (hne q k hold), Deadlines.due_drop _ hkept,
        step_since_kept (waiting_of hold) (hnot q), ← hl, h.due q k hold]
    · rw [hlist, Deadlines.due_start_self, Deadlines.due_eq_nil.mpr hnotKept,
        step_since_entered hawake (waiting_of hw'), List.nil_append]
  · -- who is gone was under the first entry
    obtain ⟨k, hw⟩ := waiting_iff.mp hw
    have hdropped : k ∈ (l.take (overflow l)).map (·.2) := by
      by_contra hnotIn
      exact waiting_eq_false.mp hgone k ((hwaits q k).mpr ⟨Or.inl hw, hnotIn⟩)
    cases l with
    | nil => cases hdropped
    | cons entry rest =>
      have hone : overflow (entry :: rest) = 1 := by
        rcases Nat.eq_zero_or_pos (overflow (entry :: rest)) with hzero | hpos
        · rw [hzero] at hdropped
          cases hdropped
        · omega
      have hfull := hfull (by rw [hone]; decide)
      rw [hone, List.take_succ_cons, List.take_zero, List.map_cons, List.map_nil,
        List.mem_singleton] at hdropped
      subst hdropped
      refine Or.inr (Or.inr ⟨hl.symm ▸ hfull, fun q' hw' => ?_⟩)
      obtain ⟨k', hw'⟩ := waiting_iff.mp hw'
      have hmem : (w.since q' + timeWaitDuration, k') ∈ w.mgr.timeWaitList :=
        Deadlines.mem_of_due (h.due q' k' hw')
      have hself : entry.1 = w.since q + timeWaitDuration := by
        refine Deadlines.eq_of_due (h.due q _ hw) ?_
        rw [hl]
        exact List.mem_cons_self ..
      have hle := hok.inOrder t hcompleting (hl.symm ▸ hfull) entry (by rw [hl]; rfl) ⟨q, hw⟩
        q' k' _ hw' hmem
      omega

/-- A retransmitted FIN renews its connection. -/
theorem Timed.renew (h : w.Timed) (hrenew : w.mgr.renews x p = true) (hw : w.mgr.WaitsFor p k)
    (hlist : (w.mgr.step x).timeWaitList =
      Deadlines.renew (x.ctx.now + timeWaitDuration) k w.mgr.timeWaitList)
    (hwaits : ∀ q k', (w.mgr.step x).WaitsFor q k' ↔ w.mgr.WaitsFor q k')
    (hdrained : w.mgr.Drained → (w.mgr.step x).Drained) : (w.step x).Timed ∧ w.Held x := by
  refine ⟨⟨h.wellFormed.step x, hdrained h.drained, ?_, fun q k' hw' => ?_⟩,
    ⟨fun q hq hgone => ?_, fun q order htick => ?_⟩⟩
  · show (w.mgr.step x).timeWaitList.length ≤ _
    rw [hlist, Deadlines.length_renew]
    exact h.room
  · have hold := (hwaits q k').mp hw'
    show Deadlines.due k' (w.mgr.step x).timeWaitList = _
    rcases eq_or_ne p q with rfl | hne
    · have hk := hw.tuple_eq hold
      subst hk
      rw [hlist, Deadlines.due_renew_self, h.due p k hw,
        step_since_renewed hrenew (waiting_of hw')]
      rfl
    · have hk : k ≠ k' := by
        rintro rfl
        exact hne (hw.unique hold h.wellFormed)
      have hnot : w.mgr.renews x q = false := by
        rw [← Bool.not_eq_true]
        exact fun hq => hne (renews_unique hrenew hq)
      rw [hlist, Deadlines.due_renew_ne _ hk, step_since_kept (waiting_of hold) hnot,
        h.due q k' hold]
  · obtain ⟨k', hq⟩ := waiting_iff.mp hq
    exact absurd ((hwaits q k').mpr hq) (waiting_eq_false.mp hgone k')
  · obtain ⟨seg, hop, -⟩ := renews_iff.mp hrenew
    rw [hop] at htick
    cases htick

/-- A tick ends who is due, and nobody else. -/
theorem Timed.tick (h : w.Timed) {order : List TCPTuple} (hop : x.op = .timer order)
    (hlist : (w.mgr.step x).timeWaitList =
      w.mgr.timeWaitList.filter (fun entry => x.ctx.now < entry.1))
    (hwaits : ∀ q k, (w.mgr.step x).WaitsFor q k ↔
      w.mgr.WaitsFor q k ∧ ∀ d ∈ Deadlines.due k w.mgr.timeWaitList, x.ctx.now < d)
    (hdrained : (w.mgr.step x).Drained) : (w.step x).Timed ∧ w.Held x := by
  have hnot : ∀ q, w.mgr.renews x q = false := fun q => by rw [renews, hop]
  -- a connection stays if and only if its deadline is ahead
  have hstays : ∀ q k, w.mgr.WaitsFor q k →
      ((w.mgr.step x).WaitsFor q k ↔ x.ctx.now < w.since q + timeWaitDuration) := by
    intro q k hw
    rw [hwaits, h.due q k hw, List.forall_mem_singleton]
    exact and_iff_right hw
  refine ⟨⟨h.wellFormed.step x, hdrained, ?_, fun q k hw => ?_⟩,
    ⟨fun q hq hgone => ?_, fun q _ _ hq hdue => ?_⟩⟩
  · show (w.mgr.step x).timeWaitList.length ≤ _
    rw [hlist]
    exact Nat.le_trans (List.length_filter_le ..) h.room
  · have hold := ((hwaits q k).mp hw).1
    have hahead := (hstays q k hold).mp hw
    show Deadlines.due k (w.mgr.step x).timeWaitList = _
    rw [hlist, Deadlines.due_filter (fun d => decide (x.ctx.now < d)), h.due q k hold,
      step_since_kept (waiting_of hold) (hnot q)]
    simp [hahead]
  · obtain ⟨k, hq⟩ := waiting_iff.mp hq
    exact Or.inl (Nat.not_lt.mp fun hahead =>
      waiting_eq_false.mp hgone k ((hstays q k hq).mpr hahead))
  · rw [waiting_eq_false]
    intro k hw
    have hold := ((hwaits q k).mp hw).1
    exact absurd hdue (Nat.not_le.mpr ((hstays q k hold).mp hw))

/-- **Every untangled step holds TIME_WAIT**, and leaves every deadline right. -/
theorem Timed.step (h : w.Timed) (hok : w.mgr.Untangled x) : (w.step x).Timed ∧ w.Held x := by
  cases step_effect h.wellFormed h.drained h.listed x with
  | calm hcalm hnot => exact h.calm hnot hcalm
  | enters hop hrst hfind hp hcloses henter => exact h.enter hok hop hrst hfind hp hcloses henter
  | renewed hrenew hw hlist hwaits hdrained => exact h.renew hrenew hw hlist hwaits hdrained
  | @reset p hreset hlose =>
    have hnot : w.mgr.RenewsNothing x := by
      obtain ⟨seg, t, hop, hrst, -⟩ := hreset
      exact renewsNothing hop fun _ _ _ h => by rw [hrst] at h; cases h
    refine ⟨h.lose hnot.2 hlose, fun q hq hgone => ?_, fun _ order hop => absurd hop (hnot.1 order)⟩
    obtain ⟨k, hq⟩ := waiting_iff.mp hq
    have hqp : q = p := by
      by_contra hne
      exact waiting_eq_false.mp hgone k ((hlose.waits q k).mpr ⟨hq, hne⟩)
    exact Or.inr (Or.inl (hqp ▸ hreset))
  | @overwritten seg old hx hover hold hlose =>
    have hnot : w.mgr.RenewsNothing x := by
      obtain ⟨seg', lp, hx', -, -, -, hnew, -⟩ := hover
      refine renewsNothing (Input.op_of_seg hx') fun q hq => ?_
      rw [hnew] at hq
      cases hq
    refine ⟨h.lose hnot.2 hlose, fun q hq hgone => ?_, fun _ order hop => absurd hop (hnot.1 order)⟩
    obtain ⟨k, hq⟩ := waiting_iff.mp hq
    have hqp : q = old := by
      by_contra hne
      exact waiting_eq_false.mp hgone k ((hlose.waits q k).mpr ⟨hq, hne⟩)
    -- it is filed under the tuple of the SYN, and due
    subst hqp
    obtain ⟨t, hp, htuple, -⟩ := h.wellFormed.find hold
    have hk : k = w.mgr.filedUnder seg := ((waitsFor_of_heap hp).mp hq).2.symm.trans htuple
    subst hk
    obtain ⟨d, hd, hmem⟩ := hok.kept seg q hover hx hq
    rw [Deadlines.eq_of_due (h.due q _ hq) hmem] at hd
    exact Or.inl hd
  | tick hop hlist hwaits hdrained => exact h.tick hop hlist hwaits hdrained

/-! ## Runs -/

omit [ICongestionControl σ] in
theorem Timed.init (localIp : UInt32) : (init localIp : Watched σ).Timed :=
  ⟨.init localIp, fun _ _ h => (nomatch h), Nat.zero_le _, fun _ _ ⟨_, h, _⟩ => (nomatch h)⟩

/-- **TIME_WAIT is held.**  In a run from the start whose steps do not tangle the list,
every step holds TIME_WAIT, and in every state each connection in TIME_WAIT has its
entry. -/
theorem timeWait_held (localIp : UInt32) (xs : List (Input σ))
    (h : GuardedRun.Meets step (fun w x => w.mgr.Untangled x) (init localIp) xs) :
    GuardedRun.Meets step Held (init localIp) xs ∧
      ∀ ys, ys <+: xs → (GuardedRun.run step (init localIp) ys).mgr.Listed := by
  refine ⟨h.imp (fun w x hw hok => hw.step hok) (Timed.init localIp), fun ys hys => ?_⟩
  exact (h.always (fun w x _ hw hok => (hw.step hok).1) (Timed.init localIp) ys hys).listed

/-! ### One connection, and the next one of its tuple -/

omit [ICongestionControl σ] in
theorem untangled_of_none {m : TCPConnectionManager σ} (hx : x.seg = none) : m.Untangled x := by
  have hnever : ∀ t, ¬ m.Completing x t := by
    rintro t ⟨seg, p, hop, -⟩
    rw [Input.seg, hop] at hx
    cases hx
  refine ⟨fun t hc => absurd hc (hnever t), fun t hc => absurd hc (hnever t),
    fun seg p _ hseg => ?_⟩
  rw [hx] at hseg
  cases hseg

omit [ICongestionControl σ] in
theorem untangled_of_segment {m : TCPConnectionManager σ} {seg : TCPSegment}
    (hlist : m.timeWaitList = []) (hx : x.seg = some seg) (hdst : seg.dstAddr = m.localIp) :
    m.Untangled x := by
  refine ⟨fun t _ hmem => ?_, fun t _ _ entry hentry => ?_,
    fun seg' p hover => absurd hdst (hover.dstAddr_ne hx)⟩
  · rw [hlist] at hmem
    cases hmem
  · rw [hlist] at hentry
    cases hentry

/-- The host accepts a connection, closes it and is answered with a FIN at `now`; its
initial number is `isn`, the peer's `seq`, and the TCB's address `p`. -/
def hostCloses (now : Nat) (isn seq : BitVec 32) (p : Ptr) : List (Input (TCPCubic Unit)) :=
  [⟨.silent now isn, .segment (fromPeer TCPFlags.syn seq 0)⟩,
    ⟨.silent now 0, .segment (fromPeer TCPFlags.ack (seq + 1) (isn + 1))⟩,
    ⟨.silent now 0, .call (.close p)⟩,
    ⟨.silent now 0, .segment (fromPeer (TCPFlags.fin ||| TCPFlags.ack) (seq + 1) (isn + 2))⟩]

/-- It then waits for 32 seconds. -/
theorem timeWait_held_once :
    GuardedRun.Meets step Held (init 0x0a000001 : Watched (TCPCubic Unit))
        (⟨.silent 0 0, .call (.listen 80 none)⟩ :: hostCloses 5 100 7000 1 ++
          [⟨.silent 32000005 0, .timer []⟩]) ∧
      ∀ ys, ys <+: ⟨.silent 0 0, .call (.listen 80 none)⟩ :: hostCloses 5 100 7000 1 ++
          [⟨.silent 32000005 0, .timer []⟩] →
        (GuardedRun.run step (init 0x0a000001) ys).mgr.Listed :=
  timeWait_held 0x0a000001 _
    ⟨untangled_of_none rfl,
      untangled_of_segment (by decide +kernel) rfl (by decide +kernel),
      untangled_of_segment (by decide +kernel) rfl (by decide +kernel),
      untangled_of_none rfl,
      untangled_of_segment (by decide +kernel) rfl (by decide +kernel),
      untangled_of_none rfl, trivial⟩

/-- The first connection is reset in TIME_WAIT.  The second, of the same tuple, comes
to TIME_WAIT a second later, and goes when the first would have. -/
theorem reusedTuple_early : ¬ ∀ (xs : List (Input (TCPCubic Unit))),
    GuardedRun.Meets step Held (init 0x0a000001) xs := by
  intro hclaim
  obtain ⟨-, hheld, -⟩ := GuardedRun.Meets.of_append (hclaim
    ((⟨.silent 0 0, .call (.listen 80 none)⟩ :: hostCloses 5 100 7000 1 ++
      [⟨.silent 6 0, .segment (fromPeer TCPFlags.rst 7002 0)⟩] ++ hostCloses 1000005 200 8000 2) ++
      [⟨.silent 32000005 0, .timer []⟩]))
  rcases hheld.notEarly 2 (by decide +kernel) (by decide +kernel) with hdue | hreset | hfull
  · exact absurd hdue (by decide +kernel)
  · obtain ⟨seg, t, hop, -⟩ := hreset
    cases hop
  · exact absurd hfull.1 (by decide +kernel)

end Watched

end NeuStack
