import NeuStack.ManagerPaths

/-! # The sweep of the timer

`on_timer` walks the map of the connections and examines each.  A connection whose
retransmissions are used up gets its `on_close` in the middle of the walk, and the application
may answer with any calls.  The walk survives exactly the answers whose calls neither open a
connection nor abort one that is still opening (`survives_iff`).
-/
namespace NeuStack
variable {σ : Type} [ICongestionControl σ]

namespace TCPConnectionManager
variable {m m' : TCPConnectionManager σ} {p : Ptr} {t : TCB σ} {ctx : Context σ}

/-! ## The walk -/

/-- The order in which the map is walked. -/
def walk (order : List TCPTuple) (m : TCPConnectionManager σ) : List TCPTuple :=
  let keys := m.connections.map (·.1)
  if order.isPerm keys then order else keys

/-- If the connection at `p` gives up when it is examined: the manager as `on_close` is
called, and the calls the application answers with. -/
def onGiveUp (ctx : Context σ) (p : Ptr) (m : TCPConnectionManager σ) :
    Option (TCPConnectionManager σ × List Call) :=
  if m.test p (retransmitDue ctx.now) then
    let m := m.on p (·.countRetransmit)
    if m.test p exhausted then
      (m.heap p).map fun t =>
        let ev := Event.onClose p t.onClose
        (m.log ev, if t.onClose.isSome then ctx.app (m.log ev) ev else [])
    else none
  else none

/-- The managers the loop passes through while it examines the connection at `p`: one
between any two calls of the application, if there are any. -/
def during (ctx : Context σ) (p : Ptr) (m : TCPConnectionManager σ) :
    List (TCPConnectionManager σ) :=
  match m.onGiveUp ctx p with
  | none => [m]
  | some (m, answer) => answer.inits.map (m.calls ctx.toEnv)

/-- **The walk survives its callbacks.**  It examines every connection once, each as it
was found at the start; all the while the map stays as it is, and the connection that is
examined stays alive. -/
structure Survives (ctx : Context σ) (order : List TCPTuple) (m : TCPConnectionManager σ) :
    Prop where
  once : ∀ tuple p, (tuple, p) ∈ m.connections → (m.walk order).count tuple = 1
  only : ∀ tuple ∈ m.walk order, ∃ p, (tuple, p) ∈ m.connections
  between : ∀ pre, pre <+: m.walk order →
    (pre.foldl (visit ctx) (m, [])).1.connections = m.connections
  visits : ∀ pre tuple, pre ++ [tuple] <+: m.walk order → ∀ p, (tuple, p) ∈ m.connections →
    ∀ m' ∈ (pre.foldl (visit ctx) (m, [])).1.during ctx p,
      m'.connections = m.connections ∧ (m'.heap p).isSome = true

/-- The call neither opens a connection nor aborts one. -/
def Harmless (m : TCPConnectionManager σ) : Call → Prop
  | .connect remoteIp remotePort localPort _ => maxConnections ≤ m.connections.length ∨
      (m.findTcb ⟨m.localIp, remoteIp, localPort, remotePort⟩).isSome = true
  | .close p => ∀ t, m.heap p = some t → t.state ≠ .synSent
  | _ => True

/-- When the connection under the tuple is examined, the application answers with
harmless calls only. -/
def Spares (ctx : Context σ) (s : TCPConnectionManager σ × List TCPTuple) (tuple : TCPTuple) :
    Prop :=
  ∀ p, s.1.findTcb tuple = some p → ∀ m answer, s.1.onGiveUp ctx p = some (m, answer) →
    GuardedRun.Meets (call ctx.toEnv) Harmless m answer

/-! ## One call -/

omit [ICongestionControl σ] in
theorem connections_on (m : TCPConnectionManager σ) (p : Ptr) (f : Conn σ → Conn σ) :
    (m.on p f).connections = m.connections := by
  cases hp : m.heap p with
  | none => rw [on_of_freed hp]
  | some t =>
    rw [on_of_heap hp]
    rfl

omit [ICongestionControl σ] in
theorem connections_eraseListener (m : TCPConnectionManager σ) (port : UInt16) :
    (m.eraseListener port).connections = m.connections := by
  rw [eraseListener]
  split <;> rfl

theorem connections_connect_iff (env : Env) (remoteIp : UInt32)
    (remotePort localPort : UInt16) (onConnect : Option Callback) :
    (m.connect env remoteIp remotePort localPort onConnect).connections = m.connections ↔
      m.Harmless (.connect remoteIp remotePort localPort onConnect) := by
  by_cases hlimit : m.connections.length < maxConnections
  · cases hfree : m.findTcb ⟨m.localIp, remoteIp, localPort, remotePort⟩ with
    | none =>
      rw [connect_eq env _ _ _ _ hlimit hfree]
      refine iff_of_false (fun hsame => ?_) ?_
      · have hlength := congrArg List.length hsame
        exact absurd hlength (Nat.succ_ne_self _)
      · rintro (hfull | hfound)
        · exact absurd hlimit (Nat.not_lt.mpr hfull)
        · rw [hfree] at hfound
          cases hfound
    | some q =>
      rw [connect, if_neg (Nat.not_le.mpr hlimit), hfree]
      exact iff_of_true rfl (Or.inr (by rw [hfree]; rfl))
  · rw [connect, if_pos (Nat.not_lt.mp hlimit)]
    exact iff_of_true rfl (Or.inl (Nat.not_lt.mp hlimit))

theorem connections_close_iff (h : m.WellFormed) (env : Env) (p : Ptr) :
    (m.close env p).connections = m.connections ↔ m.Harmless (.close p) := by
  rw [close]
  cases hp : m.heap p with
  | none =>
    refine iff_of_true rfl fun t ht => ?_
    rw [hp] at ht
    cases ht
  | some t =>
    dsimp only
    have hkeeps {c : List (TCPTuple × Ptr)} (hc : c = m.connections) (hs : t.state ≠ .synSent) :
        c = m.connections ↔ m.Harmless (.close p) := by
      refine iff_of_true hc fun u hu => ?_
      rw [hp] at hu
      cases hu
      exact hs
    cases hs : t.state with
    | synSent =>
      have hk := h.mem_connections hp (by rw [hs]; decide) (by rw [hs]; decide)
      refine iff_of_false (fun hsame => ?_) fun hharmless => hharmless t hp hs
      dsimp only at hsame
      rw [on_of_heap hp, show (m.store ((Conn.mk p t m.trace).log (.ended p t.state .localClose)))
        = m.log (.ended p t.state .localClose) by
          simp [store, Conn.log, TCPConnectionManager.log, hp],
        (h.log _).deleteTcb_connection hp hk (by rw [hs]; rfl), eraseConnection,
        show (m.log (.ended p t.state .localClose)).findTcb t.tTuple = some p from
          h.findTcb_iff.mpr hk] at hsame
      exact (Table.mem_erase.mp (hsame ▸ hk)).2 rfl
    | established => exact hkeeps (connections_on ..) (by rw [hs]; decide)
    | closeWait => exact hkeeps (connections_on ..) (by rw [hs]; decide)
    | listen =>
      refine hkeeps ?_ (by rw [hs]; decide)
      dsimp only
      rw [h.deleteTcb_listener (h.mem_listeners hp hs), connections_eraseListener]
    | _ => exact hkeeps rfl (by rw [hs]; decide)

/-- **A call leaves the map alone exactly if it is harmless.** -/
theorem connections_call_iff (h : m.WellFormed) (env : Env) (a : Call) :
    (m.call env a).connections = m.connections ↔ m.Harmless a := by
  cases a with
  | listen port onAccept =>
    refine iff_of_true ?_ trivial
    rw [call, listen]
    split
    · rfl
    · split <;> rfl
  | setListenerCallbacks port onReceive onClose =>
    refine iff_of_true ?_ trivial
    rw [call]
    split
    · rfl
    · exact connections_on ..
  | unlisten port => exact iff_of_true (connections_eraseListener m port) trivial
  | connect remoteIp remotePort localPort onConnect => exact connections_connect_iff env ..
  | send p data => exact iff_of_true (connections_on ..) trivial
  | close p => exact connections_close_iff h env p
  | setCallbacks p onReceive onClose => exact iff_of_true (connections_on ..) trivial
  | setDefaultOptions opts => exact iff_of_true rfl trivial

theorem WellFormed.call (h : m.WellFormed) (env : Env) (a : Call) : (m.call env a).WellFormed :=
  h.step ⟨⟨env, fun _ _ => []⟩, .call a⟩

/-! ## One connection -/

theorem invoke_eq (ctx : Context σ) (ev : Event) (cb : Option Callback)
    (m : TCPConnectionManager σ) : m.invoke ctx ev cb =
      (m.log ev).calls ctx.toEnv (if cb.isSome then ctx.app (m.log ev) ev else []) := by
  rw [invoke]
  split <;> rfl

theorem onGiveUp_none (h : m.onGiveUp ctx p = none) :
    (m.checkRetransmit ctx p).connections = m.connections := by
  rw [onGiveUp] at h
  rw [checkRetransmit]
  split at h
  · rename_i hdue
    dsimp only at h
    split at h
    · rename_i hexhausted
      rw [Option.map_eq_none_iff] at h
      rw [test, h] at hexhausted
      cases hexhausted
    · rename_i hleft
      rw [if_pos hdue, if_neg hleft]
      exact (connections_on ..).trans (connections_on ..)
  · rename_i hdue
    rw [if_neg hdue]

theorem onGiveUp_some (h : m.WellFormed) {answer : List Call}
    (hgive : m.onGiveUp ctx p = some (m', answer)) :
    m.checkRetransmit ctx p = (m'.calls ctx.toEnv answer).endTcb p .gaveUp ∧
      m'.connections = m.connections ∧ m'.WellFormed := by
  have hcount : (m.on p (·.countRetransmit)).WellFormed :=
    (path_on (x := ⟨ctx, .timer []⟩) none fun _ _ => .countRetransmit _).wellFormed h
  rw [onGiveUp] at hgive
  rw [checkRetransmit]
  split at hgive
  · rename_i hdue
    dsimp only at hgive
    split at hgive
    · rename_i hexhausted
      obtain ⟨t, ht, heq⟩ := Option.map_eq_some_iff.mp hgive
      rw [Prod.mk.injEq] at heq
      obtain ⟨rfl, rfl⟩ := heq
      refine ⟨?_, connections_on .., hcount.log _⟩
      rw [if_pos hdue]
      dsimp only
      rw [if_pos hexhausted, notifyClose, ht]
      exact congrArg (endTcb · p .gaveUp) (invoke_eq ..)
    · cases hgive
  · cases hgive

/-- **The examination leaves the map alone throughout** exactly if the application answers
with harmless calls. -/
theorem during_iff (h : m.WellFormed) {tuple : TCPTuple} (hk : (tuple, p) ∈ m.connections) :
    (∀ m' ∈ m.during ctx p, m'.connections = m.connections ∧ (m'.heap p).isSome = true) ↔
      ∀ m₁ answer, m.onGiveUp ctx p = some (m₁, answer) →
        GuardedRun.Meets (call ctx.toEnv) Harmless m₁ answer := by
  have halive : ∀ {m' : TCPConnectionManager σ}, m'.WellFormed →
      m'.connections = m.connections → (m'.heap p).isSome = true := by
    intro m' hwf hsame
    obtain ⟨t, ht, -⟩ := hwf.connection tuple p (hsame ▸ hk)
    rw [ht]
    rfl
  rw [during]
  cases hgive : m.onGiveUp ctx p with
  | none =>
    refine iff_of_true (fun m' hm' => ?_) fun _ _ hsome => (nomatch hsome)
    rw [List.mem_singleton.mp hm']
    exact ⟨rfl, halive h rfl⟩
  | some given =>
    obtain ⟨m₁, answer⟩ := given
    obtain ⟨-, hsame, hwf⟩ := onGiveUp_some h hgive
    constructor
    · rintro hduring _ _ ⟨⟩
      refine GuardedRun.meets_of_always (P := fun m' => m'.connections = m.connections)
        (fun _ a hs => hs.call ctx.toEnv a) (fun m' a hs hm' hnext => ?_) hwf fun made hmade => ?_
      · exact (connections_call_iff hs ctx.toEnv a).mp (hnext.trans hm'.symm)
      · exact (hduring _ (List.mem_map.mpr ⟨made, (List.mem_inits ..).mpr hmade, rfl⟩)).1
    · intro hmeets m' hm'
      obtain ⟨made, hmade, rfl⟩ := List.mem_map.mp hm'
      obtain ⟨hkeeps, hmade⟩ := GuardedRun.Meets.always
        (P := fun m' : TCPConnectionManager σ => m'.connections = m.connections ∧ m'.WellFormed)
        (fun m' a _ hs ha =>
          ⟨((connections_call_iff hs.2 ctx.toEnv a).mpr ha).trans hs.1, hs.2.call ctx.toEnv a⟩)
        ⟨hsame, hwf⟩ (hmeets m₁ answer rfl) made ((List.mem_inits ..).mp hmade)
      exact ⟨hkeeps, halive hmade hkeeps⟩

/-! ## The whole walk -/

/-- What holds between two rounds of the loop. -/
structure Swept (m : TCPConnectionManager σ) (s : TCPConnectionManager σ × List TCPTuple) :
    Prop where
  wellFormed : s.1.WellFormed
  closed : ∀ tuple ∈ s.2, s.1.ClosedAt tuple
  connections : s.1.connections = m.connections

/-- A round leaves the map as it is, if the application spares it. -/
theorem Swept.round {s : TCPConnectionManager σ × List TCPTuple} (h : Swept m s)
    {tuple : TCPTuple} (hspares : Spares ctx s tuple) : Swept m (visit ctx s tuple) := by
  obtain ⟨hpath, hclosed⟩ := path_visit (o := m) (x := ⟨ctx, .timer []⟩) s h.wellFormed h.closed
    tuple
  refine ⟨hpath.wellFormed h.wellFormed, hclosed, ?_⟩
  rw [visit]
  cases hp : s.1.findTcb tuple with
  | none => exact h.connections
  | some p =>
    have hk := h.wellFormed.findTcb_iff.mp hp
    have hcheck : (s.1.checkRetransmit ctx p).connections = s.1.connections := by
      cases hgive : s.1.onGiveUp ctx p with
      | none => exact onGiveUp_none hgive
      | some given =>
        obtain ⟨m₁, answer⟩ := given
        have hduring := (during_iff h.wellFormed hk).mpr (hspares p hp)
        rw [during, hgive] at hduring
        rw [(onGiveUp_some h.wellFormed hgive).1, (endTcb_tables _).1]
        exact (hduring _ (List.mem_map.mpr
          ⟨answer, (List.mem_inits ..).mpr (List.prefix_refl _), rfl⟩)).1
    dsimp only
    split
    · exact hcheck.trans h.connections
    · exact ((connections_on ..).trans (connections_on ..)).trans (hcheck.trans h.connections)

omit [ICongestionControl σ] in
/-- The walk meets every connection once, and nothing else. -/
theorem perm_walk (m : TCPConnectionManager σ) (order : List TCPTuple) :
    (m.walk order).Perm (m.connections.map (·.1)) := by
  rw [walk]
  split
  · exact List.isPerm_iff.mp ‹_›
  · exact .refl _

/-- **The sweep survives its callbacks** if and only if each time a connection is given up, the
application answers with calls that neither open a connection nor abort one. -/
theorem survives_iff (localIp : UInt32) (xs : List (Input σ)) (ctx : Context σ)
    (order : List TCPTuple) :
    let m := GuardedRun.run step (init localIp) xs
    m.Survives ctx order ↔ GuardedRun.Meets (visit ctx) (Spares ctx) (m, []) (m.walk order) := by
  intro m
  have h : m.WellFormed := (WellFormed.init localIp).run xs
  have hperm := m.perm_walk order
  have hnodup : (m.walk order).Nodup := hperm.nodup_iff.mpr h.keys_nodup
  constructor
  · intro hsurvives
    refine GuardedRun.meets_iff.mpr fun pre tuple hpre p hp m₁ answer hgive => ?_
    have hsame := hsurvives.between pre ((List.prefix_append ..).trans hpre)
    have hpath := (path_sweep (o := m) (x := ⟨ctx, .timer []⟩) pre (m, []) h
      fun _ hmem => absurd hmem List.not_mem_nil).1
    have hwf : (pre.foldl (visit ctx) (m, [])).1.WellFormed := hpath.wellFormed h
    have hk := hwf.findTcb_iff.mp hp
    refine (during_iff hwf hk).mp (fun m' hm' => ?_) m₁ answer hgive
    obtain ⟨hmap, halive⟩ := hsurvives.visits pre tuple hpre p (hsame ▸ hk) m' hm'
    exact ⟨hmap.trans hsame.symm, halive⟩
  · intro hspares
    have hswept := GuardedRun.Meets.always (P := Swept m) (fun s tuple _ hs => hs.round)
      ⟨h, fun _ hmem => absurd hmem List.not_mem_nil, rfl⟩ hspares
    refine ⟨fun tuple p hk => ?_, fun tuple htuple => ?_,
      fun pre hpre => (hswept pre hpre).connections, fun pre tuple hpre p hk m' hm' => ?_⟩
    · exact List.count_eq_one_of_mem hnodup (hperm.mem_iff.mpr (List.mem_map.mpr ⟨_, hk, rfl⟩))
    · obtain ⟨⟨k, p⟩, hk, rfl⟩ := List.mem_map.mp (hperm.mem_iff.mp htuple)
      exact ⟨p, hk⟩
    · have hs := hswept pre ((List.prefix_append ..).trans hpre)
      have hk' : (tuple, p) ∈ (GuardedRun.run (visit ctx) (m, []) pre).1.connections :=
        hs.connections ▸ hk
      have hguard := GuardedRun.meets_iff.mp hspares pre tuple hpre p
        (hs.wellFormed.findTcb_iff.mpr hk')
      obtain ⟨hmap, halive⟩ := (during_iff hs.wellFormed hk').mpr hguard m' hm'
      exact ⟨hmap.trans hs.connections, halive⟩

/-! ### A connection that is opened again -/

/-- The fate of a connection to a host that never answers, up to its last retransmission. -/
def unanswered : TCPConnectionManager (TCPCubic Unit) :=
  GuardedRun.run step (init 0x0a000001)
    ([⟨.silent 0 0, .call (.connect 0x0a000002 80 5000 none)⟩,
      ⟨.silent 0 0, .call (.setCallbacks 0 none (some 1))⟩] ++
    [100000000, 200000000, 300000000, 400000000, 500000000].map
      fun now => ⟨.silent now 0, .timer []⟩)

/-- An application that opens another when it is told of the end of one. -/
def reopening : Context (TCPCubic Unit) where
  toEnv := (Context.silent 600000000 0 : Context (TCPCubic Unit)).toEnv
  app _ ev := match ev with
    | .onClose .. => [.connect 0x0a000002 80 5001 none]
    | _ => []

/-- **The map grows in the middle of the walk.** -/
theorem reopening_inserts : ¬ unanswered.Survives reopening [] := by
  intro hsurvives
  have hsame := congrArg List.length (hsurvives.between (unanswered.walk []) (List.prefix_refl _))
  have hbefore : unanswered.connections.length = 1 := by decide +kernel
  have hafter : ((unanswered.walk []).foldl (visit reopening)
      (unanswered, [])).1.connections.length = 2 := by decide +kernel
  rw [hbefore, hafter] at hsame
  exact absurd hsame (by decide)

end TCPConnectionManager
end NeuStack
