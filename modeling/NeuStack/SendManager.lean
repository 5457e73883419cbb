import NeuStack.SendKept
import NeuStack.TimeWaitMoves

/-! # The send side across the manager

`SendSide p known d` is what the manager keeps of the connection at `p`, whatever it does
to this connection or another: before the address is used, nothing was logged
about it; from then on its segments are right, and its TCB, as long as there is
one, is tidy.  A connection whose MSS does not fit is left alone.

The operations come first, then the application's calls, then what the handlers
share.
-/
namespace NeuStack
variable {σ : Type}

namespace TCPConnectionManager

/-- **The send side of the connection at `p`**; `known` is its initial number, if that
has been seen. -/
inductive SendSide (p : Ptr) (known : Option (BitVec 32)) (d : Intake)
    (m : TCPConnectionManager σ) : Prop
  | unborn (hk : known = none) (hd : d = {}) (hp : m.nextAddr ≤ p) (hnone : m.heap p = none)
      (hsilent : ∀ ev ∈ m.trace, ev.ptr ≠ some p)
  | tidy (hp : p < m.nextAddr) (iss : BitVec 32) (hk : ∀ x ∈ known, iss = x)
      (hwire : Wire iss p m.trace)
      (h : ∀ t, m.heap p = some t → t.iss = iss ∧ Conn.Tidy d ⟨p, t, m.trace⟩)
  | unfit (hk : known = none) (hp : p < m.nextAddr) (h : ∀ t, m.heap p = some t → ¬ t.MssFits)

namespace SendSide
variable {p q : Ptr} {known : Option (BitVec 32)} {d d' : Intake}
  {m m' : TCPConnectionManager σ} {t : TCB σ} {k : TCPTuple}

theorem born (h : m.SendSide p known d) (hp : m.heap p = some t) : p < m.nextAddr := by
  cases h with
  | unborn _ _ _ hnone =>
    rw [hnone] at hp
    cases hp
  | tidy hp => exact hp
  | unfit _ hp => exact hp

/-! ## The operations -/

/-- The other data, and the death of a TCB. -/
theorem of_heap (h : m.SendSide p known d) (hheap : ∀ t, m'.heap p = some t → m.heap p = some t)
    (htrace : m'.trace = m.trace) (hnext : m'.nextAddr = m.nextAddr) : m'.SendSide p known d := by
  cases h with
  | unborn hk hd hp hnone hsilent =>
    refine .unborn hk hd (hnext ▸ hp) ?_ (htrace ▸ hsilent)
    cases hp' : m'.heap p with
    | none => rfl
    | some t =>
      rw [hheap t hp'] at hnone
      cases hnone
  | tidy hp iss hk hwire htidy =>
    refine .tidy (hnext ▸ hp) iss hk (htrace ▸ hwire) fun t ht => ?_
    rw [htrace]
    exact htidy t (hheap t ht)
  | unfit hk hp hunfit => exact .unfit hk (hnext ▸ hp) fun t ht => hunfit t (hheap t ht)

/-- What is known of the segment changes. -/
theorem imp (h : m.SendSide p known d) (hp : m.heap p = some t)
    (htidy : Conn.Tidy d ⟨p, t, m.trace⟩ → Conn.Tidy d' ⟨p, t, m.trace⟩) :
    m.SendSide p known d' := by
  cases h with
  | unborn _ _ _ hnone =>
    rw [hnone] at hp
    cases hp
  | tidy hp' iss hk hwire h =>
    refine .tidy hp' iss hk hwire fun u hu => ?_
    rw [hp] at hu
    cases hu
    exact ⟨(h t hp).1, htidy (h t hp).2⟩
  | unfit hk hp h => exact .unfit hk hp h

/-- The segment has been processed. -/
theorem finished (h : m.SendSide p known d) : m.SendSide p known {} := by
  cases h with
  | unborn hk _ hp hnone hsilent => exact .unborn hk rfl hp hnone hsilent
  | tidy hp iss hk hwire h =>
    exact .tidy hp iss hk hwire fun t ht => ⟨(h t ht).1, (h t ht).2.finished⟩
  | unfit hk hp h => exact .unfit hk hp h

theorem log (h : m.SendSide p known d) {ev : Event} (hev : ev.Silent p)
    (hborn : ev.ptr = some p → p < m.nextAddr) : (m.log ev).SendSide p known d := by
  cases h with
  | unborn hk hd hp hnone hsilent =>
    refine .unborn hk hd hp hnone fun ev' hmem => ?_
    rcases List.mem_append.mp hmem with hold | hnew
    · exact hsilent ev' hold
    · rw [List.mem_singleton] at hnew
      intro hptr
      rw [hnew] at hptr
      exact absurd (hborn hptr) (Nat.not_lt.mpr hp)
  | tidy hp iss hk hwire h =>
    exact .tidy hp iss hk (hwire.silent hev) fun t ht =>
      ⟨(h t ht).1, Conn.Tidy.log (c := ⟨p, t, m.trace⟩) (h t ht).2 hev⟩
  | unfit hk hp h => exact .unfit hk hp h

/-- Events about others. -/
theorem logs (h : m.SendSide p known d) (evs : List Event) (hevs : ∀ ev ∈ evs, ev.ptr ≠ some p) :
    SendSide p known d { m with trace := m.trace ++ evs } := by
  induction evs generalizing m with
  | nil => exact h.of_heap (fun t ht => ht) (List.append_nil _) rfl
  | cons ev evs ih =>
    have hev := hevs ev (List.mem_cons_self ..)
    have hlog := h.log (Event.silent_of_ptr hev) fun heq => absurd heq hev
    have hrest := ih hlog fun ev' hev' => hevs ev' (List.mem_cons_of_mem _ hev')
    exact hrest.of_heap (fun t ht => ht) (by simp [TCPConnectionManager.log]) rfl

/-- A connection comes back from a function. -/
theorem store (h : m.SendSide p known d) {c : Conn σ} (hq : m.heap q = some t)
    (hown : Conn.Own ⟨q, t, m.trace⟩ c)
    (htidy : q = p → Conn.Tidy d ⟨q, t, m.trace⟩ → c.Tidy d) : (m.store c).SendSide p known d := by
  have hptr : c.ptr = q := hown.ptr
  obtain ⟨evs, htrace, hevs⟩ := hown.grows
  have htrace : c.trace = m.trace ++ evs := htrace
  rcases eq_or_ne p q with rfl | hne
  · -- the connection itself
    have hself : (m.store c).heap p = some c.tcb := by
      rw [← hptr]
      exact store_heap_self m c
    have hborn := h.born hq
    cases h with
    | unborn _ _ _ hnone =>
      rw [hnone] at hq
      cases hq
    | tidy hp iss hk hwire h =>
      obtain ⟨hiss, hold⟩ := h t hq
      have hc := htidy rfl hold
      have hiss' : c.tcb.iss = iss := hown.iss.trans hiss
      have hwire' := hc.sound.wire
      rw [hiss', hptr] at hwire'
      refine .tidy hp iss hk hwire' fun u hu => ?_
      rw [hself] at hu
      cases hu
      rw [← hptr]
      exact ⟨hiss', hc⟩
    | unfit hk hp h =>
      refine .unfit hk hp fun u hu => ?_
      rw [hself] at hu
      cases hu
      unfold TCB.MssFits
      rw [hown.options]
      exact h t hq
  · -- another one: what it logs is about itself
    have hother : (m.store c).heap p = m.heap p := store_heap_ne m (hptr ▸ hne)
    have hptrs : ∀ ev ∈ evs, ev.ptr ≠ some p := by
      intro ev hev heq
      have hq' : ev.ptr = some q := hevs ev hev
      rw [heq] at hq'
      exact hne (Option.some.inj hq')
    refine (h.logs evs hptrs).of_heap (fun u hu => ?_) htrace rfl
    rwa [hother] at hu

/-- A function of a connection. -/
theorem on (h : m.SendSide p known d) {f : Conn σ → Conn σ}
    (hf : ∀ t, m.heap q = some t → Conn.Own ⟨q, t, m.trace⟩ (f ⟨q, t, m.trace⟩) ∧
      (q = p → Conn.Tidy d ⟨q, t, m.trace⟩ → Conn.Tidy d (f ⟨q, t, m.trace⟩))) :
    (m.on q f).SendSide p known d := by
  cases hq : m.heap q with
  | none =>
    rw [on_of_freed hq]
    exact h
  | some t =>
    rw [on_of_heap hq]
    exact h.store hq (hf t hq).1 (hf t hq).2

theorem work (h : m.SendSide p known d) {f : Conn σ → Conn σ} (hf : ∀ c, Conn.Kept d c (f c)) :
    (m.on q f).SendSide p known d :=
  h.on fun _ _ => ⟨(hf _).own, fun _ => (hf _).tidy⟩

theorem eraseConnection (h : m.SendSide p known d) (k : TCPTuple) :
    (m.eraseConnection k).SendSide p known d := by
  unfold TCPConnectionManager.eraseConnection
  split
  · exact h
  · exact h.of_heap (fun t ht => ((free_heap m _ p t).mp ht).2) rfl rfl

theorem eraseListener (h : m.SendSide p known d) (port : UInt16) :
    (m.eraseListener port).SendSide p known d := by
  unfold TCPConnectionManager.eraseListener
  split
  · exact h
  · exact h.of_heap (fun t ht => ((free_heap m _ p t).mp ht).2) rfl rfl

theorem deleteTcb (h : m.SendSide p known d) (q : Ptr) : (m.deleteTcb q).SendSide p known d := by
  unfold TCPConnectionManager.deleteTcb
  split
  · exact h.eraseListener _
  · split
    · exact h
    · split
      · dsimp only
        split
        · have hcount : SendSide p known d
              { m with activeConnections := m.activeConnections - 1 } :=
            h.of_heap (fun t ht => ht) rfl rfl
          exact hcount.eraseConnection _
        · exact h.eraseConnection _
      · exact h

theorem endTcb (h : m.SendSide p known d) (q : Ptr) (cause : EndCause) :
    (m.endTcb q cause).SendSide p known d :=
  h.work fun c => .ended d c cause

/-- A new TCB, filed at the next address. -/
theorem file (h : m.SendSide p known d) {evs : List Event}
    (hheap : m'.heap = Function.update m.heap m.nextAddr (some t))
    (hnext : m'.nextAddr = m.nextAddr + 1) (htrace : m'.trace = m.trace ++ evs)
    (hevs : ∀ ev ∈ evs, ev.ptr = some m.nextAddr)
    (hnew : t.MssFits → (∀ ev ∈ m.trace, ev.ptr ≠ some m.nextAddr) →
      Conn.Tidy {} ⟨m.nextAddr, t, m.trace ++ evs⟩) : m'.SendSide p known d := by
  have hself : m'.heap m.nextAddr = some t := by rw [hheap, Function.update_self]
  rcases eq_or_ne p m.nextAddr with rfl | hne
  · cases h with
    | unborn hk hd _ _ hsilent =>
      subst hd
      have hlt : m.nextAddr < m'.nextAddr := hnext ▸ Nat.lt_succ_self _
      by_cases hmss : t.MssFits
      · have htidy := hnew hmss hsilent
        rw [← htrace] at htidy
        refine .tidy hlt t.iss (fun x hx => ?_) htidy.sound.wire fun u hu => ?_
        · rw [hk] at hx
          cases hx
        rw [hself] at hu
        cases hu
        exact ⟨rfl, htidy⟩
      · refine .unfit hk hlt fun u hu => ?_
        rw [hself] at hu
        cases hu
        exact hmss
    | tidy hp => exact absurd hp (Nat.lt_irrefl _)
    | unfit _ hp => exact absurd hp (Nat.lt_irrefl _)
  · have hother : m'.heap p = m.heap p := by rw [hheap, Function.update_of_ne hne]
    have hptrs : ∀ ev ∈ evs, ev.ptr ≠ some p := by
      intro ev hev heq
      rw [hevs ev hev] at heq
      exact hne (Option.some.inj heq).symm
    have hlogs := h.logs evs hptrs
    rw [← htrace] at hlogs
    cases hlogs with
    | unborn hk hd hp hnone hsilent =>
      refine .unborn hk hd ?_ (hother.trans hnone) hsilent
      rw [hnext]
      exact Nat.lt_of_le_of_ne hp (Ne.symm hne)
    | tidy hp iss hk hwire h =>
      have hlt : p < m'.nextAddr := hnext ▸ Nat.lt_succ_of_lt hp
      exact .tidy hlt iss hk hwire fun u hu => h u (hother.symm.trans hu)
    | unfit hk hp h =>
      have hlt : p < m'.nextAddr := hnext ▸ Nat.lt_succ_of_lt hp
      exact .unfit hk hlt fun u hu => h u (hother.symm.trans hu)

variable [ICongestionControl σ]

omit [ICongestionControl σ] in
theorem openWith (h : m.SendSide p known d) (env : Env) {flags : UInt8}
    (hflags : flags = TCPFlags.syn ∨ flags = TCPFlags.syn ||| TCPFlags.ack) {s : TCPState}
    (hs : s.isOpening = true) (ht : Conn.Unsent t) :
    (m.openWith env flags s t).SendSide p known d := by
  refine h.file rfl rfl rfl (fun ev hev => ?_) fun hmss hsilent =>
    .opened ht hmss hsilent env.now hflags hs t.tTuple
  simp only [List.mem_cons, List.not_mem_nil, or_false] at hev
  rcases hev with rfl | rfl | rfl <;> rfl

omit [ICongestionControl σ] in
theorem listen (h : m.SendSide p known d) (port : UInt16) (onAccept : Option Callback) :
    (m.listen port onAccept).SendSide p known d := by
  unfold TCPConnectionManager.listen
  split
  · exact h
  split
  · exact h
  · refine h.file rfl rfl (List.append_nil _).symm (fun ev hev => nomatch hev)
      fun hmss hsilent => ?_
    rw [List.append_nil]
    exact .listening ⟨rfl, rfl, rfl, StreamBuffer.contents_ofCapacity _, Nat.zero_le _⟩ hmss rfl
      hsilent

theorem unsent_connectTcb (m : TCPConnectionManager σ) (env : Env) (k : TCPTuple)
    (onConnect : Option Callback) : Conn.Unsent (m.connectTcb env k onConnect) :=
  ⟨rfl, rfl, rfl, StreamBuffer.contents_ofCapacity _, Nat.zero_le _⟩

theorem unsent_acceptTcb (m : TCPConnectionManager σ) (env : Env) (k : TCPTuple) (l : TCB σ)
    (seg : TCPSegment) : Conn.Unsent (m.acceptTcb env k l seg) := by
  refine ⟨rfl, rfl, rfl, StreamBuffer.contents_ofCapacity _, ?_⟩
  have hwnd := seg.window.toNat_lt
  show seg.window.toNat ≤ 65535
  omega

theorem connect (h : m.SendSide p known d) (env : Env) (remoteIp : UInt32)
    (remotePort localPort : UInt16)
    (onConnect : Option Callback) :
    (m.connect env remoteIp remotePort localPort onConnect).SendSide p known d := by
  by_cases hlimit : m.connections.length < maxConnections
  · cases hfree : m.findTcb ⟨m.localIp, remoteIp, localPort, remotePort⟩ with
    | none =>
      rw [connect_eq env _ _ _ _ hlimit hfree]
      have hopen := h.openWith env (Or.inl rfl) (s := .synSent) rfl
        (unsent_connectTcb m env ⟨m.localIp, remoteIp, localPort, remotePort⟩ onConnect)
      refine hopen.log ⟨rfl, rfl, nofun⟩ fun heq => ?_
      cases heq
      exact Nat.lt_succ_self _
    | some q =>
      rw [TCPConnectionManager.connect, if_neg (Nat.not_le.mpr hlimit), hfree]
      exact h
  · rw [TCPConnectionManager.connect, if_pos (Nat.not_lt.mp hlimit)]
    exact h

/-! ## The application's calls -/

omit [ICongestionControl σ] in
/-- A change of a TCB that spares the send side. -/
theorem modify (h : m.SendSide p known d) {f : TCB σ → TCB σ}
    (hf : ∀ c : Conn σ, Conn.Kept d c ⟨c.ptr, f c.tcb, c.trace⟩) :
    (m.modify q f).SendSide p known d :=
  h.work hf

omit [ICongestionControl σ] in
theorem setCallbacks (h : m.SendSide p known d) (q : Ptr) (onReceive onClose : Option Callback) :
    (m.setCallbacks q onReceive onClose).SendSide p known d :=
  h.modify fun c => .of_eq d c rfl rfl rfl rfl rfl rfl rfl rfl

theorem close (h : m.SendSide p known d) (env : Env) (q : Ptr) :
    (m.close env q).SendSide p known d := by
  unfold TCPConnectionManager.close
  cases hq : m.heap q with
  | none => exact h
  | some t =>
    have hfinish : t.state.canSend = true → (m.on q (·.finish env)).SendSide p known d := by
      intro hcan
      refine h.on fun u hu => ?_
      rw [hq] at hu
      cases hu
      have hkept := Conn.Kept.finish d env ⟨q, t, m.trace⟩ hcan
      exact ⟨hkept.own, fun _ => hkept.tidy⟩
    dsimp only
    cases hs : t.state with
    | established => exact hfinish (by rw [hs]; rfl)
    | closeWait => exact hfinish (by rw [hs]; rfl)
    | listen => exact h.deleteTcb q
    | synSent =>
      refine SendSide.deleteTcb (h.work fun c => ⟨.log rfl, fun hc => ?_⟩) q
      exact hc.log ⟨rfl, rfl, nofun⟩
    | _ => exact h

theorem call (h : m.SendSide p known d) (env : Env) (a : Call) :
    (m.call env a).SendSide p known d := by
  cases a with
  | listen port onAccept => exact h.listen port onAccept
  | setListenerCallbacks port onReceive onClose =>
    unfold TCPConnectionManager.call
    dsimp only
    split
    · exact h
    · exact h.setCallbacks _ onReceive onClose
  | unlisten port => exact h.eraseListener port
  | connect remoteIp remotePort localPort onConnect =>
    exact h.connect env remoteIp remotePort localPort onConnect
  | send q data => exact h.work fun c => .send d env c data
  | close q => exact h.close env q
  | setCallbacks q onReceive onClose => exact h.setCallbacks q onReceive onClose
  | setDefaultOptions opts => exact h.of_heap (fun t ht => ht) rfl rfl

theorem calls (h : m.SendSide p known d) (env : Env) (as : List Call) :
    (m.calls env as).SendSide p known d := by
  induction as generalizing m with
  | nil => exact h
  | cons a as ih => exact ih (h.call env a)

theorem invoke (h : m.SendSide p known d) (ctx : Context σ) {ev : Event} (cb : Option Callback)
    (hev : ev.Silent p) (hborn : ev.ptr = some p → p < m.nextAddr) :
    (m.invoke ctx ev cb).SendSide p known d := by
  unfold TCPConnectionManager.invoke
  dsimp only
  split
  · exact (h.log hev hborn).calls ctx.toEnv _
  · exact h.log hev hborn

theorem notifyConnect (h : m.SendSide p known d) (ctx : Context σ) (q : Ptr) (error : Int) :
    (m.notifyConnect ctx q error).SendSide p known d := by
  unfold TCPConnectionManager.notifyConnect
  split
  · exact h
  · rename_i t hq
    refine h.invoke ctx _ ⟨rfl, rfl, nofun⟩ fun heq => ?_
    cases heq
    exact h.born hq

theorem notifyClose (h : m.SendSide p known d) (ctx : Context σ) (q : Ptr) :
    (m.notifyClose ctx q).SendSide p known d := by
  unfold TCPConnectionManager.notifyClose
  split
  · exact h
  · rename_i t hq
    refine h.invoke ctx _ ⟨rfl, rfl, nofun⟩ fun heq => ?_
    cases heq
    exact h.born hq

/-! ## What the handlers share -/

theorem deliverData (h : m.SendSide p known d) (ctx : Context σ) (q : Ptr) (data : List UInt8) :
    (m.deliverData ctx q data).SendSide p known d := by
  unfold TCPConnectionManager.deliverData
  split
  · exact h
  · rename_i t hq
    have hreceive : (Event.onReceive q t.onReceive data).Silent p := ⟨rfl, rfl, nofun⟩
    refine (h.invoke ctx t.onReceive hreceive fun heq => ?_).work fun c => .updateRcvWnd d c
    cases heq
    exact h.born hq

omit [ICongestionControl σ] in
theorem popOoo (h : m.SendSide p known d) (q : Ptr) :
    (m.modify q TCPConnectionManager.popOoo).SendSide p known d := by
  refine h.modify fun c => ?_
  unfold TCPConnectionManager.popOoo
  split
  · exact .of_eq d c rfl rfl rfl rfl rfl rfl rfl rfl
  · exact .of_eq d c rfl rfl rfl rfl rfl rfl rfl rfl

omit [ICongestionControl σ] in
theorem setRcvNxt (h : m.SendSide p known d) (q : Ptr) (seq : BitVec 32) :
    (m.modify q (TCPConnectionManager.setRcvNxt seq)).SendSide p known d :=
  h.modify fun c => .of_eq d c rfl rfl rfl rfl rfl rfl rfl rfl

theorem deliverOooData (h : m.SendSide p known d) (ctx : Context σ) (q : Ptr) (fuel : Nat) :
    (m.deliverOooData ctx q fuel).SendSide p known d := by
  induction fuel generalizing m with
  | zero => exact h
  | succ fuel ih =>
    unfold TCPConnectionManager.deliverOooData
    split
    · exact h
    · split
      · exact h
      split
      · exact ih (h.popOoo q)
      · exact ih (((h.deliverData ctx q _).setRcvNxt q _).popOoo q)

theorem handleData (h : m.SendSide p known d) (ctx : Context σ) (q : Ptr) (seg : TCPSegment) :
    (m.handleData ctx q seg).SendSide p known d := by
  unfold TCPConnectionManager.handleData
  split
  · exact h
  rename_i t ht
  dsimp only
  generalize (if seqLt seg.seqNum t.rcvNxt = true then (t.rcvNxt - seg.seqNum).toNat else 0) =
    overlap
  generalize (if seqLt seg.seqNum t.rcvNxt = true then t.rcvNxt else seg.seqNum) = segStart
  split
  · exact h
  split
  · exact h
  split
  · exact h
  split
  · exact (((h.deliverData ctx q _).setRcvNxt q _).deliverOooData ctx q _).work
      fun c => .acknowledgeData d _ c
  · refine SendSide.work (h.modify fun c => ?_) fun c => .bareAck d _ c
    unfold addToOooQueue
    split
    · exact .of_eq d c rfl rfl rfl rfl rfl rfl rfl rfl
    · exact .of_eq d c rfl rfl rfl rfl rfl rfl rfl rfl

theorem handlePayload (h : m.SendSide p known d) (ctx : Context σ) (q : Ptr) (seg : TCPSegment) :
    (m.handlePayload ctx q seg).SendSide p known d := by
  unfold TCPConnectionManager.handlePayload
  split
  · exact h.handleData ctx q seg
  · exact h

/-- `process_ack` of the connection the segment is for. -/
theorem processAck (h : m.SendSide p known d) (env : Env) {x : BitVec 32}
    (hq : q = p → d.ack = some x)
    (window : UInt16) : (m.on q (·.processAck env x window)).SendSide p known d :=
  h.on fun _ _ => ⟨.processAck env x window _, fun heq hc => hc.processAck env (hq heq) window⟩

theorem handleAck (h : m.SendSide p known d) (env : Env) {seg : TCPSegment}
    (hq : q = p → seg.isAck = true → d.ack = some seg.ackNum) :
    (m.handleAck env q seg).SendSide p known d := by
  unfold TCPConnectionManager.handleAck
  split
  · rename_i hack
    exact h.processAck env (fun heq => hq heq hack) seg.window
  · exact h

omit [ICongestionControl σ] in
theorem sendRst (h : m.SendSide p known d) (seg : TCPSegment) :
    (m.sendRst seg).SendSide p known d :=
  h.log ⟨rfl, rfl, nofun⟩ fun heq => by cases heq

omit [ICongestionControl σ] in
/-- A change of state along with the handshake or the close. -/
theorem setState (h : m.SendSide p known d) {s : TCPState} (hs : q = p → ∀ t, m.heap p = some t →
    Conn.Tidy d ⟨p, t, m.trace⟩ → Conn.Tidy d ((Conn.mk p t m.trace).setState s)) :
    (m.on q (·.setState s)).SendSide p known d := by
  refine h.on fun t ht => ⟨.setState _ s, fun heq hc => ?_⟩
  subst heq
  exact hs rfl t ht hc

omit [ICongestionControl σ] in
/-- Taking in the peer's FIN. -/
theorem receiveFin (h : m.SendSide p known d) (env : Env) {handler next : TCPState}
    (hnext : q = p → ∀ t, m.heap p = some t → FinEdge handler t.state next ∧
      (next = .timeWait ↔ d.finAcked = true)) :
    (m.receiveFin env q handler next).SendSide p known d := by
  refine h.on fun t ht => ⟨?_, fun heq hc => ?_⟩
  · have hrcv : Conn.Own ⟨q, t, m.trace⟩ ⟨q, { t with rcvNxt := t.rcvNxt + 1 }, m.trace⟩ :=
      .of_eq rfl rfl rfl rfl
    have hack := hrcv.trans (.sendSegment env TCPFlags.ack [] _)
    exact (hack.trans (.log rfl)).trans (.setState _ next)
  · subst heq
    obtain ⟨hedge, hwait⟩ := hnext rfl t ht
    have hrcv : Conn.Kept d ⟨q, t, m.trace⟩ ⟨q, { t with rcvNxt := t.rcvNxt + 1 }, m.trace⟩ :=
      .of_eq d ⟨q, t, m.trace⟩ rfl rfl rfl rfl rfl rfl rfl rfl
    have hack := (Conn.Kept.bareAck d env _).tidy (hrcv.tidy hc)
    have hstate : ((Conn.mk q { t with rcvNxt := t.rcvNxt + 1 } m.trace).sendSegment env
        TCPFlags.ack []).tcb.state = t.state := Conn.sendSegment_state ..
    dsimp only
    generalize (Conn.mk q { t with rcvNxt := t.rcvNxt + 1 } m.trace).sendSegment env
      TCPFlags.ack [] = c at hack hstate
    have hreceived : (Event.finReceived c.ptr handler c.tcb.state).Silent c.ptr :=
      ⟨rfl, rfl, nofun⟩
    have hlog := hack.log hreceived
    have hedge : FinEdge handler c.tcb.state next := by
      rw [hstate]
      exact hedge
    refine hlog.setState ?_ (fun hshut _ => ?_) (fun hrest => ?_)
    · rw [Conn.log_tcb]
      generalize c.tcb.state = s at hedge
      cases hedge <;> decide
    · refine hack.flushed (hedge.canSend hshut) fun hclosed => ?_
      rw [hclosed] at hedge
      cases hedge
    · have hfin : next = .timeWait := by
        rcases hrest with hfin | hrest
        · exact hwait.mpr hfin
        · generalize c.tcb.state = s at hedge
          cases hedge <;> first | rfl | cases hrest
      obtain ⟨hacked, hnothing, -⟩ := hack.settled (Or.inl (hwait.mp hfin))
      exact ⟨hacked, hnothing, by rw [hfin]; rfl⟩

end SendSide

end TCPConnectionManager

end NeuStack
