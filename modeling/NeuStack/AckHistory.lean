import NeuStack.QuietMoves

/-! # The acknowledgements of a connection

Which acknowledgements a connection processes in one entry into the manager, each with
the TCB `process_ack` finds (`processed`), and over a run (`history`).  In between the TCB
changes by quiet steps only (`step_follows`), so a property of the TCB and of its history
holds over every run if new TCBs have it, quiet steps keep it, and an acknowledgement
carries it on (`history_invariant`).
-/
namespace NeuStack
variable {σ : Type} [ICongestionControl σ]

omit [ICongestionControl σ] in
/-- **An acknowledgement** that a connection processes: the TCB `process_ack` finds, and
the segment. -/
structure Acknowledgement (σ : Type) where
  tcb : TCB σ
  seg : TCPSegment

omit [ICongestionControl σ] in
/-- Under which conditions the handlers call `process_ack`. -/
def Acknowledgement.Taken (a : Acknowledgement σ) : Prop :=
  a.tcb.state.isActive = true ∨
    a.tcb.state = .synSent ∧ a.seg.ackNum = a.tcb.iss + 1 ∨
    a.tcb.state = .synRcvd ∧ seqGt a.seg.ackNum a.tcb.sndUna = true ∧
      seqGt a.seg.ackNum a.tcb.sndNxt = false

/-- **A TCB on its way through acknowledgements**, to what there is of it in the end. -/
inductive TCB.Follows (env : Env) (p : Ptr) :
    TCB σ → List (Acknowledgement σ) → Option (TCB σ) → Prop
  | nil {t : TCB σ} {u : Option (TCB σ)} (h : ∀ w, u = some w → t.Quiets w) : Follows env p t [] u
  | cons {t v : TCB σ} (tr : List Event) {seg : TCPSegment} {as : List (Acknowledgement σ)}
      {u : Option (TCB σ)} (hquiet : t.Quiets v) (htaken : Acknowledgement.Taken ⟨v, seg⟩)
      (h : Follows env p ((Conn.mk p v tr).processAck env seg.ackNum seg.window).tcb as u) :
      Follows env p t (⟨v, seg⟩ :: as) u

namespace TCB.Follows
variable {env : Env} {p : Ptr} {t v : TCB σ} {as bs : List (Acknowledgement σ)}
  {u : Option (TCB σ)}

theorem head (hquiet : t.Quiets v) (h : v.Follows env p as u) : t.Follows env p as u := by
  cases h with
  | nil h => exact .nil fun w hw => hquiet.trans (h w hw)
  | cons tr hquiet' htaken h => exact .cons tr (hquiet.trans hquiet') htaken h

theorem trans (h : t.Follows env p as (some v)) (h' : v.Follows env p bs u) :
    t.Follows env p (as ++ bs) u := by
  generalize hw : some v = w at h
  induction h with
  | nil h =>
    subst hw
    exact h'.head (h v rfl)
  | cons tr hquiet htaken _ ih => exact .cons tr hquiet htaken (ih hw)

end TCB.Follows

namespace TCPConnectionManager
variable {m m' m'' o : TCPConnectionManager σ} {p q : Ptr} {t u v : TCB σ} {x : Input σ}
  {ctx : Context σ} {seg : TCPSegment} {as bs : List (Acknowledgement σ)} {env : Env}

/-- The acknowledgements the connection at `p` processes in one entry.  A connection that
its handshake's last segment brings data processes that one twice. -/
def processed (m : TCPConnectionManager σ) (x : Input σ) (p : Ptr) : List (Acknowledgement σ) :=
  match x.seg, m.heap p with
  | some seg, some t =>
    if m.findTcb seg.tuple = some p ∧ seg.isRst = false ∧ seg.isAck = true then
      match t.state with
      | .closed | .listen | .timeWait => []
      | .synSent =>
        if seg.isSyn ∧ seg.ackNum = t.iss + 1 then [⟨receiveSyn seg t, seg⟩] else []
      | .synRcvd =>
        if seqGt seg.ackNum t.sndUna = true ∧ seqGt seg.ackNum t.sndNxt = false then
          ⟨t, seg⟩ :: if 0 < seg.dataLength then
            let m := m.on p (·.processAck x.ctx.toEnv seg.ackNum seg.window)
            (((m.establish p).notifyConnect x.ctx p 0).heap p).toList.map (⟨·, seg⟩)
          else []
        else []
      | .established | .finWait1 | .finWait2 | .closeWait | .closing | .lastAck => [⟨t, seg⟩]
    else []
  | _, _ => []

/-- **The connection at `p` processes `as` on the way from `m` to `m'`**; to the other
TCBs, the way is a quiet one. -/
structure Processes (env : Env) (p : Ptr) (as : List (Acknowledgement σ))
    (m m' : TCPConnectionManager σ) : Prop where
  nextAddr_le : m.nextAddr ≤ m'.nextAddr
  follows : ∃ t, m.heap p = some t ∧ p < m.nextAddr ∧ t.Follows env p as (m'.heap p)
  quiet : ∀ q u, q ≠ p → m'.heap q = some u → (∃ t, m.heap q = some t ∧ t.Quiets u) ∨
    m.nextAddr ≤ q ∧ ∃ t, TCB.New t ∧ t.Quiets u

omit [ICongestionControl σ] in
theorem store_heap_of_ptr {c : Conn σ} (hptr : c.ptr = p) : (m.store c).heap p = some c.tcb :=
  hptr ▸ store_heap_self m c

namespace Processes

theorem of_quietly (h : m.WellFormed) (hp : m.heap p = some t) (hquiet : Quietly m m') :
    Processes env p [] m m' := by
  refine ⟨hquiet.nextAddr_le, ⟨t, hp, h.fresh p t hp, .nil fun w hw => ?_⟩,
    fun q u _ => hquiet.tcb q u⟩
  rcases hquiet.tcb p w hw with ⟨t', ht', hquiets⟩ | ⟨hle, -⟩
  · rw [hp] at ht'
    cases ht'
    exact hquiets
  · exact absurd (h.fresh p t hp) (Nat.not_lt.mpr hle)

theorem ack (h : m.WellFormed) (hp : m.heap p = some t) (htaken : Acknowledgement.Taken ⟨t, seg⟩)
    (hptr : ((Conn.mk p t m.trace).processAck env seg.ackNum seg.window).ptr = p) :
    Processes env p [⟨t, seg⟩] m
      (m.store ((Conn.mk p t m.trace).processAck env seg.ackNum seg.window)) := by
  refine ⟨Nat.le_refl _, ⟨t, hp, h.fresh p t hp, .cons m.trace .refl htaken (.nil fun w hw => ?_)⟩,
    fun q u hne hu => Or.inl ⟨u, ?_, .refl⟩⟩
  · rw [store_heap_of_ptr hptr] at hw
    cases hw
    exact .refl
  · rw [store_heap_ne m (hptr.symm ▸ hne)] at hu
    exact hu

theorem trans (h : Processes env p as m m') (h' : Processes env p bs m' m'') :
    Processes env p (as ++ bs) m m'' := by
  obtain ⟨t, hp, hlt, hfollows⟩ := h.follows
  obtain ⟨v, hv, -, hfollows'⟩ := h'.follows
  rw [hv] at hfollows
  refine ⟨Nat.le_trans h.nextAddr_le h'.nextAddr_le, ⟨t, hp, hlt, hfollows.trans hfollows'⟩,
    fun q u hne hu => ?_⟩
  rcases h'.quiet q u hne hu with ⟨w, hw, hquiet⟩ | ⟨hle, hnew⟩
  · rcases h.quiet q w hne hw with ⟨t, ht, hquiet'⟩ | ⟨hle, t, ht, hquiet'⟩
    · exact Or.inl ⟨t, ht, hquiet'.trans hquiet⟩
    · exact Or.inr ⟨hle, t, ht, hquiet'.trans hquiet⟩
  · exact Or.inr ⟨Nat.le_trans h.nextAddr_le hle, hnew⟩

end Processes

/-- The connection acknowledges data, and nothing else is acknowledged. -/
theorem processes_handleAck (h : m.WellFormed) (hp : m.heap p = some t)
    (hact : t.state.isActive = true) (hack : seg.isAck = true) :
    Processes env p [⟨t, seg⟩] m (m.handleAck env p seg) := by
  have hstep : Conn.ConnStep (some seg) ⟨p, t, m.trace⟩ _ := .processAck env _ seg rfl hack hact
  rw [handleAck, if_pos hack, on_of_heap hp]
  exact .ack h hp (Or.inl hact) hstep.path.ptr

theorem quietly_notifyConnect (h : m.WellFormed) (ctx : Context σ) (p : Ptr) (error : Int) :
    Quietly m (m.notifyConnect ctx p error) := by
  rw [notifyConnect]
  split
  · exact .refl m
  · rename_i t hp
    have hlog : Quietly m (m.log (.onConnect p t.onConnect error)) :=
      .of_heap (Nat.le_refl _) fun _ _ => id
    have hcalls := path_invoke (x := ⟨ctx, .timer []⟩) h (.onConnect p t.onConnect error)
      t.onConnect none
    exact hlog.trans ((hcalls.path (o := m)).quietly fun _ h => by cases h)

/-! ## The handshake -/

/-- Entering `ESTABLISHED`, and the application's answer. -/
theorem processes_establish {c : Conn σ} (hptr : c.ptr = p)
    (hproc : Processes env p as m (m.store c))
    (hopening : c.tcb.state = .synSent ∨ c.tcb.state = .synRcvd)
    (hwf : ((m.store c).establish p).WellFormed) :
    Processes env p as m (((m.store c).establish p).notifyConnect ctx p 0) := by
  have hest : ((m.store c).establish p).heap p = some { c.tcb with state := .established } := by
    rw [establish_store hptr]
    exact store_heap_self m ⟨p, { c.tcb with state := .established }, _⟩
  have hcall : Processes env p [] ((m.store c).establish p)
      (((m.store c).establish p).notifyConnect ctx p 0) :=
    .of_quietly hwf hest (quietly_notifyConnect hwf ctx p 0)
  have hstate : Processes env p as m ((m.store c).establish p) := by
    obtain ⟨t, hp, hlt, hfollows⟩ := hproc.follows
    rw [store_heap_of_ptr hptr] at hfollows
    refine ⟨?_, ⟨t, hp, hlt, ?_⟩, fun q u hne hu => ?_⟩
    · rw [establish_store hptr]
      exact Nat.le_refl _
    · have hlast : c.tcb.Follows env p [] (((m.store c).establish p).heap p) := by
        refine .nil fun w hw => ?_
        rw [hest] at hw
        cases hw
        exact .single (.state _ .established (.established hopening))
      rw [← List.append_nil as]
      exact hfollows.trans hlast
    · rw [establish_store hptr] at hu
      exact Or.inl ⟨u, (store_heap_ne m hne).symm.trans hu, .refl⟩
  have hall := hstate.trans hcall
  rwa [List.append_nil] at hall

/-- `handle_syn_sent` on the SYN+ACK it waits for. -/
theorem processes_synAck (h : m.WellFormed) (hp : m.heap p = some t) (hs : t.state = .synSent)
    (hsyn : seg.isSyn = true) (hack : seg.isAck = true) (hnum : seg.ackNum = t.iss + 1) :
    Processes ctx.toEnv p [⟨receiveSyn seg t, seg⟩] m (m.handleSynSent ctx p seg) := by
  have hseg : (⟨ctx, .segment seg⟩ : Input σ).seg = some seg := rfl
  obtain ⟨hpath, huna, heq⟩ := handleSynSent_synAck h hp hs hseg hsyn hack hnum
  rw [heq]
  have hopening : Handshake seg t (receiveSyn seg t) := .synSent hs hsyn hnum
  have hstate := hopening.path_state hpath
  refine processes_establish hpath.ptr ?_ (Or.inl (hstate.trans hs))
    ((h.move (move_establish (o := m) h hseg hp hack hopening hpath huna)).congr rfl rfl rfl rfl
      rfl)
  · refine ⟨Nat.le_refl _, ⟨t, hp, h.fresh p t hp, .cons m.trace (.single (.receiveSyn t seg))
      (Or.inr (Or.inl ⟨hs, hnum⟩)) (.nil fun w hw => ?_)⟩, fun q u hne hu => Or.inl ⟨u, ?_, .refl⟩⟩
    · rw [store_heap_of_ptr hpath.ptr] at hw
      cases hw
      have hprocess : Conn.Path (some seg) ⟨p, receiveSyn seg t, m.trace⟩
          ((Conn.mk p (receiveSyn seg t) m.trace).processAck ctx.toEnv seg.ackNum seg.window) := by
        have hs' : (receiveSyn seg t).state = .synSent := hs
        refine Conn.path_processAck _ _ rfl hack ?_ (fun _ => hnum) fun hr => ?_
        · rw [hs']
          exact nofun
        · rw [hs'] at hr
          cases hr
      exact .single (.conn (.ack ctx.toEnv _ (Or.inr (by rw [hprocess.receive]; rfl))))
    · rw [store_heap_ne m (hpath.ptr.symm ▸ hne)] at hu
      exact hu

/-- `handle_established`, also in the state an application's answer has led to. -/
theorem processes_handleEstablished {s : TCPState} (h : Ready m p) (hp : m.heap p = some t)
    (hact : t.state.isActive = true) (hack : seg.isAck = true) (hin : m.InState p s)
    (hs : TCPState.established.Reaches s) :
    Processes ctx.toEnv p [⟨t, seg⟩] m (m.handleEstablished ctx p seg) := by
  have hseg : (⟨ctx, .segment seg⟩ : Input σ).seg = some seg := rfl
  have hwork := path_handleAck h ctx.toEnv hseg
  have hready := h.work hwork
  obtain ⟨s', hreach, hin'⟩ := hwork.kept h.wellFormed hin
    (TCPState.ne_synSent_of_isActive (hs.isActive rfl))
  obtain ⟨v, hv, -⟩ := hready.heap
  exact (processes_handleAck h.wellFormed hp hact hack).trans
    (.of_quietly hready.wellFormed hv (quietly_handleEstablished hready hin' (hs.trans hreach)))

/-- `handle_syn_rcvd` on the acknowledgement it waits for. -/
theorem processes_handleSynRcvd (h : m.WellFormed) (hp : m.heap p = some t)
    (hs : t.state = .synRcvd) (hrst : seg.isRst = false) (hack : seg.isAck = true)
    (hgt : seqGt seg.ackNum t.sndUna = true) (hle : seqGt seg.ackNum t.sndNxt = false) :
    Processes ctx.toEnv p
      (⟨t, seg⟩ :: if 0 < seg.dataLength then
        let m := m.on p (·.processAck ctx.toEnv seg.ackNum seg.window)
        (((m.establish p).notifyConnect ctx p 0).heap p).toList.map (⟨·, seg⟩)
      else []) m (m.handleSynRcvd ctx p seg) := by
  have hseg : (⟨ctx, .segment seg⟩ : Input σ).seg = some seg := rfl
  obtain ⟨hpath, huna, heq⟩ := handleSynRcvd_ack h hp hs hseg hrst hack hgt hle
  have hopening : Handshake seg t t := .synRcvd hs hgt hle
  have hstate := hopening.path_state hpath
  obtain ⟨-, hready, s, hreach, hin⟩ :=
    path_establish (o := m) h hseg hp hack hopening hpath huna
  have hfirst : Processes ctx.toEnv p [⟨t, seg⟩] m (((m.store ((Conn.mk p t m.trace).processAck
      ctx.toEnv seg.ackNum seg.window)).establish p).notifyConnect ctx p 0) := by
    exact processes_establish hpath.ptr
      (.ack h hp (Or.inr (Or.inr ⟨hs, hgt, hle⟩)) hpath.ptr) (Or.inr (hstate.trans hs))
      ((h.move (move_establish (o := m) h hseg hp hack hopening hpath huna)).congr rfl rfl rfl rfl
        rfl)
  rw [heq]
  dsimp only
  rw [on_of_heap hp]
  split
  · obtain ⟨v, hv, hact⟩ := hready.heap
    rw [hv]
    generalize ((m.store ((Conn.mk p t m.trace).processAck ctx.toEnv seg.ackNum
      seg.window)).establish p).notifyConnect ctx p 0 = m₁ at *
    exact hfirst.trans (processes_handleEstablished hready hv hact hack hin hreach)
  · exact hfirst

/-! ## One entry -/

/-- A connection that is up processes the acknowledgement. -/
theorem processes_up (ctx : Context σ) (h : m.WellFormed) (hfind : m.findTcb seg.tuple = some p)
    (hp : m.heap p = some t) (hact : t.state.isActive = true) (htw : t.state ≠ .timeWait)
    (hrst : seg.isRst = false) (hack : seg.isAck = true) :
    Processes ctx.toEnv p [⟨t, seg⟩] m (m.onSegmentReceived ctx seg) := by
  have hin : m.InState p t.state :=
    ⟨t, hp, h.mem_connections hp (TCPState.ne_listen_of_isActive hact)
      (TCPState.ne_closed_of_isActive hact), rfl⟩
  have hseg : (⟨ctx, .segment seg⟩ : Input σ).seg = some seg := rfl
  have hready : Ready m p := hin.ready h hact
  have hready' := hready.work (path_handleAck hready ctx.toEnv hseg)
  obtain ⟨v, hv, -⟩ := hready'.heap
  exact (processes_handleAck h hp hact hack).trans
    (.of_quietly hready'.wellFormed hv (quietly_onSegmentReceived h hfind hp hact htw hrst))

/-- **A segment with an acknowledgement for the connection at `p`.** -/
theorem processes_onSegmentReceived (ctx : Context σ) (h : m.WellFormed)
    (hfind : m.findTcb seg.tuple = some p) (hrst : seg.isRst = false) (hack : seg.isAck = true) :
    Processes ctx.toEnv p (m.processed ⟨ctx, .segment seg⟩ p) m (m.onSegmentReceived ctx seg) := by
  obtain ⟨t, hp, -, hl⟩ := h.find hfind
  have hfind' : (m.findTcb seg.tuple <|> m.findListeningTcb seg.dstPort) = some p := by
    rw [hfind]
    rfl
  have hseg : (⟨ctx, .segment seg⟩ : Input σ).seg = some seg := rfl
  have hreply : Processes ctx.toEnv p [] m (m.sendRst seg) :=
    .of_quietly h hp (.of_heap (Nat.le_refl _) fun _ _ => id)
  have hup := processes_up ctx h hfind hp
  rw [processed, hseg, hp]
  dsimp only
  rw [if_pos ⟨hfind, hrst, hack⟩]
  rw [onSegmentReceived, hfind'] at hup ⊢
  dsimp only at hup ⊢
  rw [hrst, if_neg Bool.false_ne_true, hp] at hup ⊢
  dsimp only at hup ⊢
  cases hs : t.state with
  | listen => exact absurd hs hl
  | closed =>
    dsimp only
    rw [handleClosed, hrst]
    exact hreply
  | synSent =>
    dsimp only
    split
    · rename_i hnum
      exact processes_synAck h hp hs hnum.1 hack hnum.2
    · rename_i hnum
      rw [handleSynSent, hack]
      cases hsyn : seg.isSyn with
      | false => exact .of_quietly h hp (.refl m)
      | true =>
        have hne : (seg.ackNum != t.iss + 1) = true := bne_iff_ne.mpr fun heq => hnum ⟨hsyn, heq⟩
        rw [test_of_heap hp, hne]
        exact hreply
  | synRcvd =>
    dsimp only
    split
    · rename_i hrange
      exact processes_handleSynRcvd h hp hs hrst hack hrange.1 hrange.2
    · rename_i hrange
      have hout : (!seqGt seg.ackNum t.sndUna || seqGt seg.ackNum t.sndNxt) = true := by
        cases hgt : seqGt seg.ackNum t.sndUna <;> cases hle : seqGt seg.ackNum t.sndNxt <;>
          simp_all
      rw [handleSynRcvd, hrst, hack, if_neg Bool.false_ne_true, Bool.not_true,
        if_neg Bool.false_ne_true, test_of_heap hp, if_pos hout]
      exact hreply
  | timeWait =>
    have hin : m.InState p .timeWait :=
      ⟨t, hp, h.mem_connections hp hl (by rw [hs]; decide), hs⟩
    have hpath : Path m (ctx.unacked seg) ⟨m, none⟩ ⟨m.handleTimeWait ctx p seg, none⟩ :=
      path_handleTimeWait h hin
    exact .of_quietly h hp (hpath.quietly (ctx.unacked_seg seg))
  | established =>
    rw [hs] at hup
    exact hup rfl (by decide) rfl hack
  | finWait1 =>
    rw [hs] at hup
    exact hup rfl (by decide) rfl hack
  | finWait2 =>
    rw [hs] at hup
    exact hup rfl (by decide) rfl hack
  | closeWait =>
    rw [hs] at hup
    exact hup rfl (by decide) rfl hack
  | closing =>
    rw [hs] at hup
    exact hup rfl (by decide) rfl hack
  | lastAck =>
    rw [hs] at hup
    exact hup rfl (by decide) rfl hack

/-- The segment of an entry acknowledges something to the connection at `p`. -/
def Brings (m : TCPConnectionManager σ) (x : Input σ) (p : Ptr) : Prop :=
  ∃ seg, x.seg = some seg ∧ m.findTcb seg.tuple = some p ∧ seg.isRst = false ∧ seg.isAck = true

theorem processed_of_not_brings (h : ¬ m.Brings x p) : m.processed x p = [] := by
  rw [processed]
  split
  · rename_i seg t hseg hp
    exact if_neg fun hfor => h ⟨seg, hseg, hfor⟩
  · rfl

omit [ICongestionControl σ] in
theorem WellFormed.find_heap (h : m.WellFormed) {k : TCPTuple} {port : UInt16}
    (hfind : (m.findTcb k <|> m.findListeningTcb port) = some p) : ∃ t, m.heap p = some t := by
  cases hnew : m.findTcb k with
  | none =>
    rw [hnew] at hfind
    obtain ⟨t, hp, -⟩ := h.findListening hfind
    exact ⟨t, hp⟩
  | some q =>
    rw [hnew] at hfind
    cases hfind
    obtain ⟨t, hp, -⟩ := h.find hnew
    exact ⟨t, hp⟩

/-- **Without an acknowledgement for a connection, an entry is a quiet one.** -/
theorem quietly_step (h : m.WellFormed) (hno : ∀ p, ¬ m.Brings x p) : Quietly m (m.step x) := by
  by_cases hack : ∃ seg, x.seg = some seg ∧ seg.isAck = true
  · obtain ⟨seg, hseg, hack⟩ := hack
    have hop := Input.op_of_seg hseg
    rw [TCPConnectionManager.step, hop]
    dsimp only
    have hreply : Quietly m (m.sendRst seg) := .of_heap (Nat.le_refl _) fun _ _ => id
    rw [onSegmentReceived]
    cases hfind : m.findTcb seg.tuple <|> m.findListeningTcb seg.dstPort with
    | none =>
      dsimp only
      split
      · exact .refl m
      · exact hreply
    | some p =>
      dsimp only
      split
      · rename_i hrst
        obtain ⟨t, hp⟩ := h.find_heap hfind
        have hpath : Path m (x.ctx.unacked seg) ⟨m, none⟩ ⟨m.handleRst x.ctx p seg, none⟩ := by
          have hrst' : seg.unacked.isRst = true := by rw [seg.isRst_unacked, hrst]
          have hseg' : (x.ctx.unacked seg).seg = some seg.unacked := rfl
          have hpath := path_handleRst h hseg' hrst' hfind hp
          exact hpath
        exact hpath.quietly (x.ctx.unacked_seg seg)
      · rename_i hrst
        have hrst : seg.isRst = false := by simpa using hrst
        have hnew : m.findTcb seg.tuple = none := by
          cases hnew : m.findTcb seg.tuple with
          | none => rfl
          | some q => exact absurd ⟨seg, hseg, hnew, hrst, hack⟩ (hno q)
        rw [hnew] at hfind
        obtain ⟨t, hp, -, hs⟩ := h.findListening hfind
        rw [hp]
        dsimp only
        rcases hs with hs | hs
        · rw [hs]
          dsimp only
          rw [handleListen, hp]
          dsimp only
          rw [hack, Bool.or_true, if_pos rfl]
          exact .refl m
        · rw [hs]
          dsimp only
          rw [handleClosed, hrst]
          exact hreply
  · refine (path_step h x).quietly fun seg hseg => ?_
    cases hseg' : seg.isAck with
    | false => rfl
    | true => exact absurd ⟨seg, hseg, hseg'⟩ hack

/-- **What one entry does to a TCB that is alive**: quiet steps between the
acknowledgements it processes. -/
theorem step_follows (h : m.WellFormed) (x : Input σ) (hp : m.heap p = some t) :
    t.Follows x.ctx.toEnv p (m.processed x p) ((m.step x).heap p) := by
  by_cases hbrings : ∃ q, m.Brings x q
  · obtain ⟨q, seg, hseg, hfind, hrst, hack⟩ := hbrings
    obtain ⟨ctx, op⟩ := x
    have hop : op = .segment seg := Input.op_of_seg hseg
    subst hop
    have hproc := processes_onSegmentReceived ctx h hfind hrst hack
    rcases eq_or_ne p q with rfl | hne
    · obtain ⟨u, hu, -, hfollows⟩ := hproc.follows
      rw [hp] at hu
      cases hu
      exact hfollows
    · rw [processed_of_not_brings]
      · refine .nil fun w hw => ?_
        rcases hproc.quiet p w hne hw with ⟨u, hu, hquiet⟩ | ⟨hle, -⟩
        · rw [hp] at hu
          cases hu
          exact hquiet
        · exact absurd (h.fresh p t hp) (Nat.not_lt.mpr hle)
      · rintro ⟨seg', hseg', hfind', -⟩
        rw [hseg] at hseg'
        cases hseg'
        rw [hfind] at hfind'
        exact hne (Option.some.inj hfind').symm
  · rw [processed_of_not_brings fun hb => hbrings ⟨p, hb⟩]
    have hquiet := quietly_step h fun q hq => hbrings ⟨q, hq⟩
    have hproc : Processes x.ctx.toEnv p [] m (m.step x) := .of_quietly h hp hquiet
    obtain ⟨u, hu, -, hfollows⟩ := hproc.follows
    rw [hp] at hu
    cases hu
    exact hfollows

/-- What an entry leaves at an address that held nothing is a new TCB. -/
theorem step_new (h : m.WellFormed) (x : Input σ) (hp : m.heap p = none) :
    m.processed x p = [] ∧ ∀ u, (m.step x).heap p = some u →
      m.nextAddr ≤ p ∧ ∃ t, TCB.New t ∧ t.Quiets u := by
  have hnot : ¬ m.Brings x p := by
    rintro ⟨seg, -, hfind, -⟩
    obtain ⟨t, ht, -⟩ := h.find hfind
    rw [hp] at ht
    cases ht
  refine ⟨processed_of_not_brings hnot, fun u hu => ?_⟩
  by_cases hbrings : ∃ q, m.Brings x q
  · obtain ⟨q, seg, hseg, hfind, hrst, hack⟩ := hbrings
    have hne : p ≠ q := by
      rintro rfl
      exact hnot ⟨seg, hseg, hfind, hrst, hack⟩
    obtain ⟨ctx, op⟩ := x
    have hop : op = .segment seg := Input.op_of_seg hseg
    subst hop
    have hproc := processes_onSegmentReceived ctx h hfind hrst hack
    rcases hproc.quiet p u hne hu with ⟨t, ht, -⟩ | hnew
    · rw [hp] at ht
      cases ht
    · exact hnew
  · rcases (quietly_step h fun q hq => hbrings ⟨q, hq⟩).tcb p u hu with ⟨t, ht, -⟩ | hnew
    · rw [hp] at ht
      cases ht
    · exact hnew

theorem nextAddr_le_step (h : m.WellFormed) (x : Input σ) : m.nextAddr ≤ (m.step x).nextAddr := by
  by_cases hbrings : ∃ q, m.Brings x q
  · obtain ⟨q, seg, hseg, hfind, hrst, hack⟩ := hbrings
    obtain ⟨ctx, op⟩ := x
    have hop : op = .segment seg := Input.op_of_seg hseg
    subst hop
    exact (processes_onSegmentReceived ctx h hfind hrst hack).nextAddr_le
  · exact (quietly_step h fun q hq => hbrings ⟨q, hq⟩).nextAddr_le

/-! ## A run -/

/-- **The acknowledgements the connection at `p` processes in the run over `xs`.** -/
def history (p : Ptr) : TCPConnectionManager σ → List (Input σ) → List (Acknowledgement σ)
  | _, [] => []
  | m, x :: xs => m.processed x p ++ history p (m.step x) xs

theorem history_append (p : Ptr) (m : TCPConnectionManager σ) (xs ys : List (Input σ)) :
    m.history p (xs ++ ys) = m.history p xs ++ (GuardedRun.run step m xs).history p ys := by
  induction xs generalizing m with
  | nil => rfl
  | cons x xs ih =>
    rw [List.cons_append, history, history, ih, List.append_assoc]
    rfl

/-- A property of a TCB and the acknowledgements so far that new TCBs have, quiet steps
keep and acknowledgements carry on, and what it makes of the acknowledgements alone. -/
structure Recorded (I : List (Acknowledgement σ) → TCB σ → Prop)
    (J : List (Acknowledgement σ) → Prop) : Prop where
  nil : J []
  new : ∀ t, TCB.New t → I [] t
  quiet : ∀ h t u, TCB.Quiet t u → I h t → I h u
  ack : ∀ h t seg env p tr, I h t → Acknowledgement.Taken ⟨t, seg⟩ →
    I (h ++ [⟨t, seg⟩]) ((Conn.mk p t tr).processAck env seg.ackNum seg.window).tcb
  history : ∀ h t, I h t → J h

namespace Recorded
variable {I : List (Acknowledgement σ) → TCB σ → Prop} {J : List (Acknowledgement σ) → Prop}

theorem quiets (hI : Recorded I J) {h : List (Acknowledgement σ)} (hquiet : t.Quiets u)
    (ht : I h t) : I h u := by
  induction hquiet with
  | refl => exact ht
  | tail _ hstep ih => exact hI.quiet h _ _ hstep ih

theorem follows (hI : Recorded I J) {h : List (Acknowledgement σ)} {w : Option (TCB σ)}
    (hfollows : t.Follows env p as w) (ht : I h t) :
    J (h ++ as) ∧ ∀ u, w = some u → I (h ++ as) u := by
  induction hfollows generalizing h with
  | nil hquiet =>
    rw [List.append_nil]
    exact ⟨hI.history h _ ht, fun u hu => hI.quiets (hquiet u hu) ht⟩
  | cons tr hquiet htaken _ ih =>
    rw [List.append_cons]
    exact ih (hI.ack h _ _ env p tr (hI.quiets hquiet ht) htaken)

/-- **The rule for histories**, and for what there is of the TCB in the end. -/
theorem run_tcb (hI : Recorded I J) (h : m.WellFormed) {as : List (Acknowledgement σ)} (hJ : J as)
    (hnew : m.nextAddr ≤ p → as = []) (ht : ∀ t, m.heap p = some t → I as t)
    (xs : List (Input σ)) : J (as ++ m.history p xs) ∧
      ∀ t, (GuardedRun.run step m xs).heap p = some t → I (as ++ m.history p xs) t := by
  induction xs generalizing m as with
  | nil =>
    rw [TCPConnectionManager.history, List.append_nil]
    exact ⟨hJ, ht⟩
  | cons x xs ih =>
    rw [TCPConnectionManager.history, ← List.append_assoc]
    have hle := nextAddr_le_step h x
    cases hp : m.heap p with
    | none =>
      obtain ⟨hnil, hmade⟩ := step_new h x hp
      rw [hnil, List.append_nil]
      refine ih (h.step x) hJ (fun hlast => hnew (Nat.le_trans hle hlast)) fun u hu => ?_
      obtain ⟨hfresh, t, hmade, hquiet⟩ := hmade u hu
      rw [hnew hfresh]
      exact hI.quiets hquiet (hI.new t hmade)
    | some t =>
      obtain ⟨hJ', hI'⟩ := hI.follows (step_follows h x hp) (ht t hp)
      refine ih (h.step x) hJ' (fun hlast => ?_) hI'
      exact absurd (h.fresh p t hp) (Nat.not_lt.mpr (Nat.le_trans hle hlast))

theorem run (hI : Recorded I J) (localIp : UInt32) (p : Ptr) (xs : List (Input σ)) :
    J ((init localIp).history p xs) ∧ ∀ t,
      (GuardedRun.run step (init localIp) xs).heap p = some t →
        I ((init localIp).history p xs) t := by
  have h := hI.run_tcb (WellFormed.init localIp) hI.nil (p := p) (fun _ => rfl)
    (fun t ht => nomatch ht) xs
  rwa [List.nil_append] at h

end Recorded

end TCPConnectionManager
end NeuStack
