import NeuStack.CheckedManager
import NeuStack.TCBInvariants

/-! # No division by zero

What the divisions of the manager rest on (`NonzeroDivisors`): the default options and the
options of every connection have a positive MSS, and every controller is in order.  The
functions that do not divide keep this; the functions that do go through and keep it.  So a
run goes through from its first input to its last (`Goes.foldlM`), for the manager by itself
and for the layer above that exchanges the controllers.
-/
namespace NeuStack
open Checked

theorem TCPOptions.mss_default : 0 < ({} : TCPOptions).mss := by decide

/-- The call does not set an MSS of zero. -/
def Call.PositiveMss : Call → Prop
  | .setDefaultOptions opts => 0 < opts.mss
  | _ => True

/-- Neither does the application in answer to a callback. -/
def Context.PositiveMss {σ : Type} (ctx : Context σ) : Prop :=
  ∀ m ev, ∀ a ∈ ctx.app m ev, a.PositiveMss

/-- **The options of the application have a positive MSS.** -/
def Input.PositiveMss {σ : Type} (x : Input σ) : Prop :=
  x.ctx.PositiveMss ∧ ∀ a, x.op = .call a → a.PositiveMss

variable {σ : Type} [ICongestionControl σ] [CheckedControl σ]

namespace TCPConnectionManager

/-- **What the divisions of the manager rest on.** -/
structure NonzeroDivisors (m : TCPConnectionManager σ) : Prop where
  defaults : 0 < m.defaultOptions.mss
  tcbs : m.AllTCBs TCB.NonzeroDivisors

variable {m m' : TCPConnectionManager σ} {p : Ptr}

namespace NonzeroDivisors

theorem init (localIp : UInt32) :
    (TCPConnectionManager.init localIp : TCPConnectionManager σ).NonzeroDivisors :=
  ⟨TCPOptions.mss_default, .init _ localIp⟩

theorem of_heap (h : m.NonzeroDivisors) (hdef : m'.defaultOptions = m.defaultOptions)
    (hheap : m'.heap = m.heap) : m'.NonzeroDivisors :=
  ⟨hdef ▸ h.defaults, h.tcbs.of_heap hheap⟩

/-! ## The functions that do not divide -/

theorem log (h : m.NonzeroDivisors) (ev : Event) : (m.log ev).NonzeroDivisors :=
  h.of_heap rfl rfl

theorem store (h : m.NonzeroDivisors) {c : Conn σ} (hc : c.tcb.NonzeroDivisors) :
    (m.store c).NonzeroDivisors := ⟨h.defaults, h.tcbs.store hc⟩

theorem on (h : m.NonzeroDivisors) {f : Conn σ → Conn σ}
    (hf : ∀ c, c.tcb.NonzeroDivisors → (f c).tcb.NonzeroDivisors) :
    (m.on p f).NonzeroDivisors := by
  cases hp : m.heap p with
  | none =>
    rw [on_of_freed hp]
    exact h
  | some t =>
    rw [on_of_heap hp]
    exact h.store (hf _ (h.tcbs p t hp))

theorem modify (h : m.NonzeroDivisors) {f : TCB σ → TCB σ}
    (hf : ∀ t, t.NonzeroDivisors → (f t).NonzeroDivisors) : (m.modify p f).NonzeroDivisors :=
  h.on fun c hc => hf c.tcb hc

theorem setState (h : m.NonzeroDivisors) (s : TCPState) :
    (m.on p (·.setState s)).NonzeroDivisors :=
  h.on fun _ hc => hc.congr rfl rfl

theorem sendSegment (h : m.NonzeroDivisors) (env : Env) (flags : UInt8) (data : List UInt8) :
    (m.on p (·.sendSegment env flags data)).NonzeroDivisors :=
  h.on fun _ hc => Conn.sendSegment_divisors env hc flags data

theorem setCallbacks (h : m.NonzeroDivisors) (p : Ptr) (onReceive onClose : Option Callback) :
    (m.setCallbacks p onReceive onClose).NonzeroDivisors := by
  rw [TCPConnectionManager.setCallbacks]
  exact h.modify fun _ ht => ht.congr rfl rfl

theorem alloc (h : m.NonzeroDivisors) {t : TCB σ} (ht : t.NonzeroDivisors)
    (hdef : m'.defaultOptions = m.defaultOptions)
    (hheap : m'.heap = Function.update m.heap m.nextAddr (some t)) : m'.NonzeroDivisors :=
  ⟨hdef ▸ h.defaults, h.tcbs.alloc ht hheap⟩

theorem eraseConnection (h : m.NonzeroDivisors) (k : TCPTuple) :
    (m.eraseConnection k).NonzeroDivisors := by
  refine ⟨?_, h.tcbs.eraseConnection k⟩
  rw [TCPConnectionManager.eraseConnection]
  split <;> exact h.defaults

theorem eraseListener (h : m.NonzeroDivisors) (port : UInt16) :
    (m.eraseListener port).NonzeroDivisors := by
  refine ⟨?_, h.tcbs.eraseListener port⟩
  rw [TCPConnectionManager.eraseListener]
  split <;> exact h.defaults

theorem endTcb (h : m.NonzeroDivisors) (p : Ptr) (cause : EndCause) :
    (m.endTcb p cause).NonzeroDivisors :=
  h.on fun _ hc => hc.congr rfl rfl

/-- One connection less is counted. -/
theorem uncount (h : m.NonzeroDivisors) (s : Bool) :
    (if s then { m with activeConnections := m.activeConnections - 1 } else m).NonzeroDivisors := by
  cases s with
  | true => exact h.of_heap rfl rfl
  | false => exact h

theorem deleteTcb (h : m.NonzeroDivisors) (p : Ptr) : (m.deleteTcb p).NonzeroDivisors := by
  rw [TCPConnectionManager.deleteTcb]
  split
  · exact h.eraseListener _
  split
  · exact h
  · rename_i t ht
    split
    · exact (h.uncount t.state.isActive).eraseConnection _
    · exact h

/-- A new connection takes the default options, and a controller made for their MSS. -/
theorem newTcb (h : m.NonzeroDivisors) (env : Env) (tuple : TCPTuple) :
    (newTcb env m.defaultOptions tuple : TCB σ).NonzeroDivisors := by
  refine ⟨h.defaults, fun cc he => ?_⟩
  rw [← Option.some.inj he]
  exact CheckedControl.create_ok _ h.defaults

theorem createTcb (h : m.NonzeroDivisors) (env : Env) (tuple : TCPTuple) :
    (m.createTcb env tuple).2.NonzeroDivisors := by
  rw [TCPConnectionManager.createTcb]
  cases m.findTcb tuple with
  | none => exact h.alloc (h.newTcb env tuple) rfl rfl
  | some old =>
    have hfreed := (h.endTcb old .replaced).eraseConnection tuple
    exact hfreed.alloc (hfreed.newTcb env tuple) rfl rfl

/-- A connection is changed, and sends its first segment. -/
theorem greet (h : m.NonzeroDivisors) (env : Env) (flags : UInt8) (s : TCPState) {f : TCB σ → TCB σ}
    (hf : ∀ t, t.NonzeroDivisors → (f t).NonzeroDivisors) :
    ((m.modify p f).on p fun c => (c.sendSegment env flags []).setState s).NonzeroDivisors :=
  (h.modify hf).on fun _ hc => (Conn.sendSegment_divisors env hc flags []).congr rfl rfl

theorem connect (h : m.NonzeroDivisors) (env : Env) (remoteIp : UInt32)
    (remotePort localPort : UInt16) (onConnect : Option Callback) :
    (m.connect env remoteIp remotePort localPort onConnect).NonzeroDivisors := by
  rw [TCPConnectionManager.connect]
  dsimp only
  split
  · exact h
  split
  · exact h
  · refine log ?_ _
    exact greet (h.createTcb env _) env _ _ fun t ht => ht.congr rfl rfl

theorem listen (h : m.NonzeroDivisors) (port : UInt16) (onAccept : Option Callback) :
    (m.listen port onAccept).NonzeroDivisors := by
  rw [TCPConnectionManager.listen]
  split
  · exact h
  split
  · exact h
  · exact h.alloc (t := listenTcb m.localIp port onAccept)
      ⟨TCPOptions.mss_default, fun _ he => by cases he⟩ rfl rfl

theorem handleListen (h : m.NonzeroDivisors) (env : Env) (lp : Ptr) (seg : TCPSegment) :
    (m.handleListen env lp seg).NonzeroDivisors := by
  rw [TCPConnectionManager.handleListen]
  split
  · exact h
  split
  · exact h
  split
  · exact h
  · exact greet (h.createTcb env _) env _ _ fun t ht => ht.congr rfl rfl

theorem receiveFin (h : m.NonzeroDivisors) (env : Env) (p : Ptr) (handler next : TCPState) :
    (m.receiveFin env p handler next).NonzeroDivisors := by
  refine h.on fun c hc => ?_
  have hnext : ({ c.tcb with rcvNxt := c.tcb.rcvNxt + 1 } : TCB σ).NonzeroDivisors :=
    hc.congr rfl rfl
  exact (Conn.sendSegment_divisors (c := { c with
    tcb := { c.tcb with rcvNxt := c.tcb.rcvNxt + 1 } }) env hnext _ _).congr rfl rfl

theorem establish (h : m.NonzeroDivisors) (p : Ptr) : (m.establish p).NonzeroDivisors :=
  (h.setState (p := p) .established).of_heap rfl rfl

theorem addToOooQueue (h : m.NonzeroDivisors) (seq : BitVec 32) (data : List UInt8) :
    (m.modify p (addToOooQueue seq data)).NonzeroDivisors := by
  refine h.modify fun t ht => ?_
  rw [TCPConnectionManager.addToOooQueue]
  split
  · exact ht
  · exact ht.congr rfl rfl

theorem popOoo (h : m.NonzeroDivisors) : (m.modify p popOoo).NonzeroDivisors := by
  refine h.modify fun t ht => ?_
  rw [TCPConnectionManager.popOoo]
  split
  · exact ht
  · exact ht.congr rfl rfl

theorem setRcvNxt (h : m.NonzeroDivisors) (seq : BitVec 32) :
    (m.modify p (setRcvNxt seq)).NonzeroDivisors :=
  h.modify fun _ ht => ht.congr rfl rfl

/-! ### The TIME_WAIT list -/

theorem expireTimeWait (h : m.NonzeroDivisors) (cause : EndCause) (tuple : TCPTuple) :
    (m.expireTimeWait cause tuple).NonzeroDivisors := by
  rw [TCPConnectionManager.expireTimeWait]
  split
  · exact h
  split
  · exact (h.endTcb _ cause).deleteTcb _
  · exact h

theorem evictTimeWait (h : m.NonzeroDivisors) (l : List (Nat × TCPTuple)) :
    (evictTimeWait l m).NonzeroDivisors := by
  induction l generalizing m with
  | nil => exact h.of_heap rfl rfl
  | cons entry rest ih =>
    rw [TCPConnectionManager.evictTimeWait]
    split
    · exact ih (h.expireTimeWait _ _)
    · exact h.of_heap rfl rfl

/-- The buffer is gone, the options stay. -/
theorem startTimeWaitTimer (h : m.NonzeroDivisors) (env : Env) (p : Ptr) :
    (m.startTimeWaitTimer env p).NonzeroDivisors := by
  rw [TCPConnectionManager.startTimeWaitTimer]
  have hevict := h.evictTimeWait m.timeWaitList
  split
  · exact hevict
  · refine modify ?_ fun t ht => ht.congr rfl rfl
    exact hevict.of_heap rfl rfl

theorem handleTimeWait (h : m.NonzeroDivisors) (ctx : Context σ) (p : Ptr) (seg : TCPSegment) :
    (m.handleTimeWait ctx p seg).NonzeroDivisors := by
  rw [TCPConnectionManager.handleTimeWait]
  split
  · have hack := h.sendSegment (p := p) ctx.toEnv TCPFlags.ack []
    rw [restartTimeWaitTimer]
    split
    · exact hack
    split
    · exact hack.of_heap rfl rfl
    · exact hack.startTimeWaitTimer _ _
  · exact h

end NonzeroDivisors

/-! ## The functions that do -/

/-- The checked computation on a manager goes through and keeps what it rests on. -/
abbrev Divides (r : Option (TCPConnectionManager σ)) (m : TCPConnectionManager σ) : Prop :=
  Goes NonzeroDivisors r m

namespace NonzeroDivisors
variable {ctx : Context σ} {seg : TCPSegment}

theorem on_divides (h : m.NonzeroDivisors) {f? : Conn σ → Option (Conn σ)} {f : Conn σ → Conn σ}
    (hf : ∀ c, c.tcb.NonzeroDivisors → Conn.Divides (f? c) (f c)) :
    Divides (m.on? p f?) (m.on p f) := by
  rw [on?]
  cases hp : m.heap p with
  | none =>
    rw [on_of_freed hp]
    exact .some h
  | some t =>
    rw [on_of_heap hp]
    exact (hf _ (h.tcbs p t hp)).map fun hc => h.store hc

theorem close_divides (h : m.NonzeroDivisors) (env : Env) (p : Ptr) :
    Divides (m.close? env p) (m.close env p) := by
  have hfinish := h.on_divides (p := p) fun c hc => Conn.finish_divides env hc
  rw [close?]
  cases hp : m.heap p with
  | none =>
    rw [close, hp]
    exact .some h
  | some t =>
    have hclosed : (m.close env p).NonzeroDivisors := by
      rw [close, hp]
      dsimp only
      split
      · exact hfinish.holds
      · exact hfinish.holds
      · exact h.deleteTcb p
      · refine deleteTcb ?_ p
        exact h.on fun _ hc => hc
      · exact h
    dsimp only
    split
    · rename_i hs
      rw [close, hp]
      dsimp only
      rw [hs]
      exact hfinish
    · rename_i hs
      rw [close, hp]
      dsimp only
      rw [hs]
      exact hfinish
    · exact .some hclosed

theorem call_divides (h : m.NonzeroDivisors) (env : Env) {a : Call} (ha : a.PositiveMss) :
    Divides (m.call? env a) (m.call env a) := by
  cases a with
  | send p data =>
    exact h.on_divides fun c hc => (Conn.send_divides env hc data).map id
  | close p => exact h.close_divides env p
  | listen port onAccept => exact .some (h.listen port onAccept)
  | unlisten port => exact .some (h.eraseListener port)
  | connect remoteIp remotePort localPort onConnect => exact .some (h.connect env _ _ _ _)
  | setCallbacks p onReceive onClose => exact .some (h.setCallbacks p onReceive onClose)
  | setDefaultOptions opts => exact .some ⟨ha, h.tcbs⟩
  | setListenerCallbacks port onReceive onClose =>
    refine .some ?_
    rw [call]
    split
    · exact h
    · exact h.setCallbacks _ onReceive onClose

/-! ### Callbacks -/

theorem invoke_divides (h : m.NonzeroDivisors) (hctx : ctx.PositiveMss) (ev : Event)
    (cb : Option Callback) : Divides (m.invoke? ctx ev cb) (m.invoke ctx ev cb) := by
  rw [invoke?, invoke]
  refine .ite (fun _ => ?_) fun _ => .some (h.log ev)
  refine Goes.foldlM (fun m a ha hm => hm.call_divides _ ?_) (h.log ev)
  exact hctx _ ev a ha

theorem notifyConnect_divides (h : m.NonzeroDivisors) (hctx : ctx.PositiveMss) (p : Ptr)
    (error : Int) : Divides (m.notifyConnect? ctx p error) (m.notifyConnect ctx p error) := by
  rw [notifyConnect?, notifyConnect]
  cases m.heap p with
  | none => exact .some h
  | some t => exact h.invoke_divides hctx _ _

theorem notifyClose_divides (h : m.NonzeroDivisors) (hctx : ctx.PositiveMss) (p : Ptr) :
    Divides (m.notifyClose? ctx p) (m.notifyClose ctx p) := by
  rw [notifyClose?, notifyClose]
  cases m.heap p with
  | none => exact .some h
  | some t => exact h.invoke_divides hctx _ _

theorem deliverData_divides (h : m.NonzeroDivisors) (hctx : ctx.PositiveMss) (p : Ptr)
    (data : List UInt8) : Divides (m.deliverData? ctx p data) (m.deliverData ctx p data) := by
  rw [deliverData?, deliverData]
  cases m.heap p with
  | none => exact .some h
  | some t =>
    refine (h.invoke_divides hctx _ _).bind fun hm => .some ?_
    exact hm.on fun _ hc => hc.congr rfl rfl

/-! ### Incoming data -/

theorem deliverOooData_divides (h : m.NonzeroDivisors) (hctx : ctx.PositiveMss) (p : Ptr)
    (fuel : Nat) : Divides (m.deliverOooData? ctx p fuel) (m.deliverOooData ctx p fuel) := by
  induction fuel generalizing m with
  | zero => exact .some h
  | succ fuel ih =>
    rw [deliverOooData?, deliverOooData]
    cases (m.heap p).bind fun t => t.oooQueue.head?.map (t.rcvNxt, ·) with
    | none => exact .some h
    | some front =>
      refine .ite (fun _ => .some h) fun _ => ?_
      refine .ite (fun _ => ih h.popOoo) fun _ => ?_
      refine (h.deliverData_divides hctx p _).bind fun hm => ?_
      exact ih (hm.setRcvNxt _).popOoo

theorem handleData_divides (h : m.NonzeroDivisors) (hctx : ctx.PositiveMss) (p : Ptr)
    (seg : TCPSegment) : Divides (m.handleData? ctx p seg) (m.handleData ctx p seg) := by
  rw [handleData?, handleData]
  cases m.heap p with
  | none => exact .some h
  | some t =>
    refine .ite (fun _ => .some h) fun _ => ?_
    refine .ite (fun _ => .some h) fun _ => ?_
    refine .ite (fun _ => .some h) fun _ => ?_
    refine .ite (fun _ => ?_) fun _ => .some ((h.addToOooQueue _ _).sendSegment _ _ _)
    refine (h.deliverData_divides hctx p _).bind fun hm => ?_
    refine ((hm.setRcvNxt _).deliverOooData_divides hctx p _).bind fun hm => .some ?_
    exact hm.on fun _ hc => Conn.acknowledgeData_divisors _ hc

/-! ### The state handlers -/

theorem processAck_divides (h : m.NonzeroDivisors) (env : Env) (p : Ptr) (seg : TCPSegment) :
    Divides (m.on? p (·.processAck? env seg.ackNum seg.window))
      (m.on p (·.processAck env seg.ackNum seg.window)) :=
  h.on_divides fun _ hc => Conn.processAck_divides env hc _ _

theorem handleAck_divides (h : m.NonzeroDivisors) (env : Env) (p : Ptr) (seg : TCPSegment) :
    Divides (m.handleAck? env p seg) (m.handleAck env p seg) :=
  .ite (fun _ => h.processAck_divides env p seg) fun _ => .some h

theorem handlePayload_divides (h : m.NonzeroDivisors) (hctx : ctx.PositiveMss) (p : Ptr)
    (seg : TCPSegment) : Divides (m.handlePayload? ctx p seg) (m.handlePayload ctx p seg) :=
  .ite (fun _ => h.handleData_divides hctx p seg) fun _ => .some h

theorem handleSynSent_divides (h : m.NonzeroDivisors) (hctx : ctx.PositiveMss) (p : Ptr)
    (seg : TCPSegment) : Divides (m.handleSynSent? ctx p seg) (m.handleSynSent ctx p seg) := by
  have hsyn : (m.modify p (receiveSyn seg)).NonzeroDivisors :=
    h.modify fun _ ht => ht.congr rfl rfl
  rw [handleSynSent?, handleSynSent]
  split
  · refine .ite (fun _ => .some (h.log _)) fun _ => ?_
    refine (hsyn.processAck_divides _ p seg).bind fun hm => ?_
    exact ((hm.sendSegment _ _ _).establish p).notifyConnect_divides hctx p 0
  · refine .some ?_
    split
    · exact greet h _ _ _ fun _ ht => ht.congr rfl rfl
    · exact h

theorem handleEstablished_divides (h : m.NonzeroDivisors) (hctx : ctx.PositiveMss) (p : Ptr)
    (seg : TCPSegment) :
    Divides (m.handleEstablished? ctx p seg) (m.handleEstablished ctx p seg) := by
  refine (h.handleAck_divides _ p seg).bind fun hm => ?_
  refine (hm.handlePayload_divides hctx p seg).bind fun hm => ?_
  exact .ite (fun _ => (hm.receiveFin _ p _ _).notifyClose_divides hctx p) fun _ => .some hm

theorem handleSynRcvd_divides (h : m.NonzeroDivisors) (hctx : ctx.PositiveMss) (p : Ptr)
    (seg : TCPSegment) : Divides (m.handleSynRcvd? ctx p seg) (m.handleSynRcvd ctx p seg) := by
  rw [handleSynRcvd?, handleSynRcvd]
  refine .ite (fun _ => .ite (fun _ => .some (h.deleteTcb p)) fun _ => ?_) fun _ => ?_
  · refine (h.notifyConnect_divides hctx p (-1)).bind fun hm => .some ?_
    exact (hm.setState .closed).deleteTcb p
  refine .ite (fun _ => .some h) fun _ => .ite (fun _ => .some (h.log _)) fun _ => ?_
  refine (h.processAck_divides _ p seg).bind fun hm => ?_
  refine ((hm.establish p).notifyConnect_divides hctx p 0).bind fun hm => ?_
  exact .ite (fun _ => hm.handleEstablished_divides hctx p seg) fun _ => .some hm

theorem handleFinWait1_divides (h : m.NonzeroDivisors) (hctx : ctx.PositiveMss) (p : Ptr)
    (seg : TCPSegment) : Divides (m.handleFinWait1? ctx p seg) (m.handleFinWait1 ctx p seg) := by
  refine (h.handleAck_divides _ p seg).bind fun hm => ?_
  refine (hm.handlePayload_divides hctx p seg).bind fun hm => .some ?_
  split
  · split
    · exact (hm.receiveFin _ p _ _).startTimeWaitTimer _ p
    · exact hm.receiveFin _ p _ _
  split
  · exact hm.setState _
  · exact hm

theorem handleFinWait2_divides (h : m.NonzeroDivisors) (hctx : ctx.PositiveMss) (p : Ptr)
    (seg : TCPSegment) : Divides (m.handleFinWait2? ctx p seg) (m.handleFinWait2 ctx p seg) := by
  refine (h.handleAck_divides _ p seg).bind fun hm => ?_
  refine (hm.handlePayload_divides hctx p seg).bind fun hm => .some ?_
  split
  · exact (hm.receiveFin _ p _ _).startTimeWaitTimer _ p
  · exact hm

theorem handleClosing_divides (h : m.NonzeroDivisors) (ctx : Context σ) (p : Ptr)
    (seg : TCPSegment) : Divides (m.handleClosing? ctx p seg) (m.handleClosing ctx p seg) := by
  refine (h.handleAck_divides _ p seg).bind fun hm => .some ?_
  split
  · exact (hm.setState _).startTimeWaitTimer _ p
  · exact hm

theorem handleLastAck_divides (h : m.NonzeroDivisors) (ctx : Context σ) (p : Ptr)
    (seg : TCPSegment) : Divides (m.handleLastAck? ctx p seg) (m.handleLastAck ctx p seg) := by
  refine (h.handleAck_divides _ p seg).bind fun hm => .some ?_
  split
  · exact (hm.endTcb p _).deleteTcb p
  · exact hm

theorem handleRst_divides (h : m.NonzeroDivisors) (hctx : ctx.PositiveMss) (p : Ptr)
    (seg : TCPSegment) : Divides (m.handleRst? ctx p seg) (m.handleRst ctx p seg) := by
  refine .ite (fun _ => ?_) fun _ => .some h
  have hended := (h.uncount (m.test p (·.state.isActive))).endTcb p .rst
  exact (hended.notifyClose_divides hctx p).bind fun hm => .some (hm.deleteTcb p)

/-- **A segment**, in whatever state it finds its connection. -/
theorem onSegmentReceived_divides (h : m.NonzeroDivisors) (hctx : ctx.PositiveMss)
    (seg : TCPSegment) :
    Divides (m.onSegmentReceived? ctx seg) (m.onSegmentReceived ctx seg) := by
  rw [onSegmentReceived?, onSegmentReceived]
  cases m.findTcb seg.tuple <|> m.findListeningTcb seg.dstPort with
  | none =>
    refine .some ?_
    split
    · exact h
    · exact h.log _
  | some p =>
    refine .ite (fun _ => h.handleRst_divides hctx p seg) fun _ => ?_
    cases m.heap p with
    | none => exact .some h
    | some t =>
      dsimp only
      cases t.state with
      | closed =>
        refine .some ?_
        rw [handleClosed]
        split
        · exact h
        · exact h.log _
      | listen => exact .some (h.handleListen _ p seg)
      | synSent => exact h.handleSynSent_divides hctx p seg
      | synRcvd => exact h.handleSynRcvd_divides hctx p seg
      | established => exact h.handleEstablished_divides hctx p seg
      | finWait1 => exact h.handleFinWait1_divides hctx p seg
      | finWait2 => exact h.handleFinWait2_divides hctx p seg
      | closeWait => exact h.handleAck_divides _ p seg
      | closing => exact h.handleClosing_divides ctx p seg
      | lastAck => exact h.handleLastAck_divides ctx p seg
      | timeWait => exact .some (h.handleTimeWait ctx p seg)

/-! ### The timer -/

theorem checkRetransmit_divides (h : m.NonzeroDivisors) (hctx : ctx.PositiveMss) (p : Ptr) :
    Divides (m.checkRetransmit? ctx p) (m.checkRetransmit ctx p) := by
  have hcount : (m.on p (·.countRetransmit)).NonzeroDivisors :=
    h.on fun _ hc => Conn.countRetransmit_divisors hc
  refine .ite (fun _ => .ite (fun _ => ?_) fun _ => .some ?_) fun _ => .some h
  · exact (hcount.notifyClose_divides hctx p).bind fun hm => .some (hm.endTcb p _)
  · exact hcount.on fun _ hc => Conn.retransmit_divisors _ hc

theorem visit_divides {s : TCPConnectionManager σ × List TCPTuple} (h : s.1.NonzeroDivisors)
    (hctx : ctx.PositiveMss) (tuple : TCPTuple) :
    Goes (fun s : TCPConnectionManager σ × List TCPTuple => s.1.NonzeroDivisors)
      (visit? ctx s tuple) (visit ctx s tuple) := by
  rw [visit?, visit]
  cases s.1.findTcb tuple with
  | none => exact .some h
  | some p =>
    refine (h.checkRetransmit_divides hctx p).bind fun hm => .some ?_
    split
    · exact hm
    · refine on (hm.on fun _ hc => ?_) fun _ hc => ?_
      · exact Conn.checkDelayedAck_divisors _ hc
      · exact Conn.checkZeroWindowProbe_divisors _ hc

/-- **A timer tick**, in whatever order it walks the connections. -/
theorem onTimer_divides (h : m.NonzeroDivisors) (hctx : ctx.PositiveMss)
    (order : List TCPTuple) : Divides (m.onTimer? ctx order) (m.onTimer ctx order) := by
  rw [onTimer?, onTimer]
  refine Goes.bind (Goes.foldlM (P := fun s => s.1.NonzeroDivisors)
    (fun s tuple _ hs => visit_divides hs hctx tuple) h) fun hsweep => .some ?_
  -- the rest of the tick erases connections and shortens the list
  refine of_heap (m := List.foldl _ _ _) ?_ rfl rfl
  refine List.foldlRecOn (motive := NonzeroDivisors) _ _ ?_ fun m hm entry _ => ?_
  · exact List.foldlRecOn (motive := NonzeroDivisors) _ _ hsweep
      fun m hm tuple _ => hm.eraseConnection tuple
  · split
    · exact hm.expireTimeWait _ _
    · exact hm

/-- **One entry into the manager** goes through. -/
theorem step_divides (h : m.NonzeroDivisors) {x : Input σ} (hx : x.PositiveMss) :
    Divides (m.step? x) (m.step x) := by
  rw [step?, step]
  cases hop : x.op with
  | call a => exact h.call_divides _ (hx.2 a hop)
  | segment seg => exact h.onSegmentReceived_divides hx.1 seg
  | timer order => exact h.onTimer_divides hx.1 order

end NonzeroDivisors
end TCPConnectionManager
end NeuStack
