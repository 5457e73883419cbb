import NeuStack.Measurement

/-! # Karn's rule

A connection as a machine of its own: its inputs are the calls of the functions that work on
one connection, in any order (`ConnCall`), and its state is the TCB with all that the network
saw of it (`Life`).  The connections of the manager are runs of it (`lived`).

As long as no acknowledgement disturbs the measurement, every sample is genuine
(`samples_genuine`).  `check_dup_ack` sends the head of the queue again without ending the
measurement or counting the retransmission, and the sample of its acknowledgement is not
(`misled`).
-/
namespace NeuStack
variable {σ : Type} [ICongestionControl σ]

/-- **A call of a function that works on one connection**, or an assignment to its TCB. -/
inductive ConnCall
  /-- The first segment: a SYN of `connect`, or a SYN+ACK of `handle_listen`. -/
  | first (env : Env) (iss : BitVec 32) (passive : Bool)
  /-- The second SYN of `handle_syn_sent`. -/
  | second (env : Env) (seg : TCPSegment)
  | processAck (env : Env) (seg : TCPSegment)
  | send (env : Env) (data : List UInt8)
  | finish (env : Env)
  | ack (env : Env)
  | acknowledgeData (env : Env)
  | updateRcvWnd
  | checkDelayedAck (env : Env)
  | checkZeroWindowProbe (env : Env)
  | countRetransmit
  | retransmit (env : Env)
  | receive (side : TCBReceive)
  | callbacks (onReceive onClose : Option Callback)
  | state (s : TCPState)
  | release

namespace ConnCall

open TCPConnectionManager in
def run : ConnCall → Conn σ → Conn σ
  | .first env iss passive, c =>
    { c with tcb := { c.tcb with iss := iss, sndUna := iss, sndNxt := iss } }.sendSegment env
      (if passive then TCPFlags.syn ||| TCPFlags.ack else TCPFlags.syn) []
  | .second env seg, c =>
    { c with tcb := rewind seg c.tcb }.sendSegment env (TCPFlags.syn ||| TCPFlags.ack) []
  | .processAck env seg, c => c.processAck env seg.ackNum seg.window
  | .send env data, c => (c.send env data).2
  | .finish env, c => c.finish env
  | .ack env, c => c.sendSegment env TCPFlags.ack []
  | .acknowledgeData env, c => c.acknowledgeData env
  | .updateRcvWnd, c => c.updateRcvWnd
  | .checkDelayedAck env, c => c.checkDelayedAck env
  | .checkZeroWindowProbe env, c => c.checkZeroWindowProbe env
  | .countRetransmit, c => c.countRetransmit
  | .retransmit env, c => c.retransmit env
  | .receive side, c => { c with tcb := { c.tcb with toTCBReceive := side } }
  | .callbacks onReceive onClose, c => { c with tcb := { c.tcb with onReceive, onClose } }
  | .state s, c => { c with tcb := { c.tcb with state := s } }
  | .release, c => { c with tcb := releaseBuffers c.tcb }

/-- When the segments of the call go out, if there are any. -/
def time : ConnCall → Nat
  | .first env _ _ | .second env _ | .processAck env _ | .send env _ | .finish env | .ack env
  | .acknowledgeData env | .checkDelayedAck env | .checkZeroWindowProbe env
  | .retransmit env => env.now
  | _ => 0

/-- What the network sees of the call, given the TCB before and the events it logs.  The
second SYN has the number of the first. -/
def shows (t : TCB σ) (evs : List Event) : ConnCall → List Happening
  | .processAck env seg =>
    .acked env.now seg.ackNum (t.rttSample env.now seg.ackNum) :: happenings env.now evs
  | .second _ _ => [.resent t.sndUna]
  | a => happenings a.time evs

/-- The acknowledgement the call processes. -/
def processes (t : TCB σ) : ConnCall → List (Acknowledgement σ)
  | .processAck _ seg => [⟨t, seg⟩]
  | _ => []

/-- **The call does not disturb the measurement.** -/
def Undisturbing (t : TCB σ) : ConnCall → Prop
  | .processAck env seg => t.rttMeasuring = true → t.Undisturbed env.now seg.ackNum
  | .second _ _ => False
  | _ => True

instance (t : TCB σ) : DecidablePred (ConnCall.Undisturbing t)
  | .processAck _ _ => inferInstanceAs (Decidable (_ → _))
  | .second _ _ => inferInstanceAs (Decidable False)
  | .first .. | .send .. | .finish .. | .ack .. | .acknowledgeData .. | .updateRcvWnd
  | .checkDelayedAck .. | .checkZeroWindowProbe .. | .countRetransmit | .retransmit ..
  | .receive .. | .callbacks .. | .state .. | .release => inferInstanceAs (Decidable True)

end ConnCall

/-- **The life of a connection**: its TCB, the acknowledgements it has processed, and what
the network saw of it. -/
structure Life (σ : Type) where
  tcb : TCB σ
  processed : List (Acknowledgement σ) := []
  seen : List Happening := []

/-- A call, made on the connection at the address when the manager has logged the events. -/
structure Life.Input where
  call : ConnCall
  ptr : Ptr := 0
  trace : List Event := []

/-- Nothing is sent yet. -/
def TCB.Unsent (t : TCB σ) : Prop := t.retransmitQueue = [] ∧ t.rttMeasuring = false

namespace Life

def step (l : Life σ) (x : Input) : Life σ :=
  let c := x.call.run ⟨x.ptr, l.tcb, x.trace⟩
  { tcb := c.tcb
    processed := l.processed ++ x.call.processes l.tcb
    seen := l.seen ++ x.call.shows l.tcb (c.trace.drop x.trace.length) }

/-- The guard of a run. -/
def Undisturbing (l : Life σ) (x : Input) : Prop := x.call.Undisturbing l.tcb

instance (l : Life σ) (x : Input) : Decidable (l.Undisturbing x) :=
  inferInstanceAs (Decidable (x.call.Undisturbing l.tcb))

/-- The measurement is in order, and all samples were genuine. -/
structure Sound (l : Life σ) : Prop where
  measured : Measured l.tcb.toTCBRtt l.tcb.retransmitQueue l.seen
  genuine : AllGenuine l.seen

end Life

/-! ## One call -/

namespace ConnCall
variable {t : TCB σ} {seen : List Happening}

/-- What the network sees before the segments of the call. -/
def arrives (t : TCB σ) : ConnCall → List Happening
  | .processAck env seg => [.acked env.now seg.ackNum (t.rttSample env.now seg.ackNum)]
  | _ => []

theorem shows_of_undisturbing {a : ConnCall} (hok : a.Undisturbing t) (evs : List Event) :
    a.shows t evs = a.arrives t ++ happenings a.time evs := by
  cases a with
  | second => exact hok.elim
  | _ => rfl

end ConnCall

namespace Conn
variable {env : Env} {c : Conn σ} {seen : List Happening}

omit [ICongestionControl σ] in
/-- The first segment is tracked like any other. -/
theorem measured_first (h : NeuStack.Measured c.tcb.toTCBRtt c.tcb.retransmitQueue seen)
    (iss : BitVec 32) {flags : UInt8}
    (hflags : flags = TCPFlags.syn ∨ flags = TCPFlags.syn ||| TCPFlags.ack) :
    ({ c with tcb := { c.tcb with iss := iss, sndUna := iss, sndNxt := iss } }.sendSegment env
      flags []).Measured env.now seen c.trace := by
  have hnumbered : Conn.Measured env.now seen c.trace
      { c with tcb := { c.tcb with iss := iss, sndUna := iss, sndNxt := iss } } :=
    measured_of_tcb (c := ⟨c.ptr, _, c.trace⟩) env.now h
  have hspace : seqSpace flags 0 = 1 := by
    rcases hflags with rfl | rfl <;> rfl
  rw [sendSegment_syn env hflags]
  refine hnumbered.enqueue ⟨iss, iss + BitVec.ofNat 32 (seqSpace flags 0), [], env.now,
    env.now + c.tcb.rtoUs.toNat, 0⟩ rfl rfl ?_ ?_ rfl rfl
  · rw [TCB.segLen_segment]
    exact hspace ▸ Nat.one_pos
  · rw [TCB.segLen_segment]
    rfl

end Conn

namespace ConnCall
variable {t : TCB σ} {seen : List Happening}

/-- **A call that does not disturb the measurement keeps it in order.** -/
theorem measured (a : ConnCall) (p : Ptr) (tr : List Event)
    (h : Measured t.toTCBRtt t.retransmitQueue seen) (hok : a.Undisturbing t) :
    (a.run ⟨p, t, tr⟩).Measured a.time (seen ++ a.arrives t) tr := by
  have hlog : Measured t.toTCBRtt t.retransmitQueue (seen ++ []) := by rwa [List.append_nil]
  have hstart : ∀ time, (Conn.mk p t tr).Measured time (seen ++ []) tr :=
    fun time => Conn.measured_of_tcb time hlog
  cases a with
  | first env iss passive =>
    refine Conn.measured_first (c := ⟨p, t, tr⟩) hlog iss ?_
    cases passive
    · exact Or.inl rfl
    · exact Or.inr rfl
  | second => exact hok.elim
  | processAck env seg => exact Conn.measured_processAck (c := ⟨p, t, tr⟩) h hok seg.window
  | send env data => exact (Conn.outs_send _ data).measured (hstart env.now)
  | finish env => exact (Conn.outs_finish _).measured (hstart env.now)
  | ack env => exact (Conn.outs_ack _).measured (hstart env.now)
  | acknowledgeData env => exact (Conn.outs_acknowledgeData _).measured (hstart env.now)
  | checkDelayedAck env => exact (Conn.outs_checkDelayedAck _).measured (hstart env.now)
  | checkZeroWindowProbe env =>
    exact (Conn.outs_checkZeroWindowProbe _).measured (hstart env.now)
  | countRetransmit => exact Conn.measured_countRetransmit (c := ⟨p, t, tr⟩) _ hlog
  | retransmit env => exact Conn.measured_retransmit (c := ⟨p, t, tr⟩) hlog
  | release => exact ⟨[], (List.append_nil _).symm, measured_nil _ _⟩
  | updateRcvWnd | receive | callbacks | state => exact hstart 0

end ConnCall

namespace Life
variable {l : Life σ}

theorem Sound.step (h : l.Sound) (x : Input) (hok : l.Undisturbing x) : (l.step x).Sound := by
  obtain ⟨evs, htrace, hmeasured⟩ := x.call.measured x.ptr x.trace h.measured hok
  have hseen : (l.step x).seen = l.seen ++ x.call.arrives l.tcb ++ happenings x.call.time evs := by
    rw [Life.step]
    dsimp only
    rw [htrace, List.drop_left, x.call.shows_of_undisturbing hok, List.append_assoc]
  refine ⟨?_, ?_⟩
  · rw [hseen]
    exact hmeasured
  · rw [hseen]
    refine AllGenuine.happenings ?_ _ _
    have hnone : AllGenuine (l.seen ++ []) := by
      rw [List.append_nil]
      exact h.genuine
    cases hcall : x.call with
    | processAck env seg =>
      rw [Undisturbing, hcall] at hok
      refine h.genuine.concat fun time ackNum rttUs hx => ?_
      obtain ⟨rfl, rfl, hsample⟩ := Happening.acked.inj hx
      exact TCB.genuine_of_undisturbed h.measured hok hsample
    | _ => exact hnone

/-! ## A run -/

/-- **In a run whose acknowledgements never disturb the measurement, all samples are
genuine.** -/
theorem samples_genuine {t : TCB σ} (hunsent : t.Unsent) {xs : List Input}
    (hmeets : GuardedRun.Meets step Undisturbing ⟨t, [], []⟩ xs) :
    AllGenuine (GuardedRun.run step ⟨t, [], []⟩ xs).seen := by
  have hstart : Sound (⟨t, [], []⟩ : Life σ) := ⟨measured_of_idle hunsent.2 _ _, allGenuine_nil⟩
  exact (hmeets.invariant (fun _ x h => h.step x) hstart).genuine

/-! ### The connections of the manager -/

/-- A connection that has processed `as` can look like this. -/
def Lived (as : List (Acknowledgement σ)) (t : TCB σ) : Prop :=
  ∃ t₀ xs, t₀.Unsent ∧ (GuardedRun.run step ⟨t₀, [], []⟩ xs).tcb = t ∧
    (GuardedRun.run step ⟨t₀, [], []⟩ xs).processed = as

theorem Lived.unsent {t : TCB σ} (h : t.Unsent) : Lived [] t := ⟨t, [], h, rfl, rfl⟩

/-- A call on it. -/
theorem Lived.call {as : List (Acknowledgement σ)} {t : TCB σ} (h : Lived as t) (a : ConnCall)
    (p : Ptr) (tr : List Event) : Lived (as ++ a.processes t) (a.run ⟨p, t, tr⟩).tcb := by
  obtain ⟨t₀, xs, hunsent, rfl, rfl⟩ := h
  refine ⟨t₀, xs ++ [⟨a, p, tr⟩], hunsent, ?_, ?_⟩
  · rw [GuardedRun.run_append]
    rfl
  · rw [GuardedRun.run_append]
    rfl

/-- A call that processes no acknowledgement. -/
theorem Lived.quiet {as : List (Acknowledgement σ)} {t : TCB σ} (h : Lived as t) {a : ConnCall}
    (ha : a.processes t = []) (p : Ptr) (tr : List Event) : Lived as (a.run ⟨p, t, tr⟩).tcb := by
  have hcall := h.call a p tr
  rwa [ha, List.append_nil] at hcall

theorem Lived.connStep {as : List (Acknowledgement σ)} {c c' : Conn σ} (h : Lived as c.tcb)
    (hstep : Conn.ConnStep none c c') : Lived as c'.tcb := by
  cases hstep with
  | send env c data => exact h.quiet (a := .send env data) rfl c.ptr c.trace
  | finish env c => exact h.quiet (a := .finish env) rfl c.ptr c.trace
  | processAck env c seg hx => cases hx
  | ack env c => exact h.quiet (a := .ack env) rfl c.ptr c.trace
  | acknowledgeData env c => exact h.quiet (a := .acknowledgeData env) rfl c.ptr c.trace
  | updateRcvWnd c => exact h.quiet (a := .updateRcvWnd) rfl c.ptr c.trace
  | checkDelayedAck env c => exact h.quiet (a := .checkDelayedAck env) rfl c.ptr c.trace
  | checkZeroWindowProbe env c =>
    exact h.quiet (a := .checkZeroWindowProbe env) rfl c.ptr c.trace
  | countRetransmit c => exact h.quiet (a := .countRetransmit) rfl c.ptr c.trace
  | retransmit env c => exact h.quiet (a := .retransmit env) rfl c.ptr c.trace

open TCPConnectionManager

theorem Lived.receive {as : List (Acknowledgement σ)} {t : TCB σ} (h : Lived as t)
    (side : TCBReceive) : Lived as { t with toTCBReceive := side } :=
  h.quiet (a := .receive side) rfl 0 []

theorem Lived.state {as : List (Acknowledgement σ)} {t : TCB σ} (h : Lived as t)
    (s : TCPState) : Lived as { t with state := s } :=
  h.quiet (a := .state s) rfl 0 []

/-- A connection as the manager makes it. -/
theorem Lived.first {t : TCB σ} (h : t.Unsent) (env : Env) (iss : BitVec 32) (passive : Bool) :
    Lived [] (({ t with iss := iss, sndUna := iss, sndNxt := iss } : TCB σ).sendSyn env.now
      (if passive then TCPFlags.syn ||| TCPFlags.ack else TCPFlags.syn)) := by
  have hcall := (Lived.unsent h).quiet (a := .first env iss passive) rfl 0 []
  rw [ConnCall.run, Conn.sendSegment_syn env (by cases passive <;> simp)] at hcall
  exact hcall

theorem lived_recorded : Recorded (σ := σ) Lived (fun as => ∃ t, Lived as t) where
  nil := ⟨{}, Lived.unsent ⟨rfl, rfl⟩⟩
  new t ht := by
    cases ht with
    | listen => exact Lived.unsent ⟨rfl, rfl⟩
    | connect env m tuple onConnect =>
      exact (Lived.first (t := m.connectTcb env tuple onConnect) ⟨rfl, rfl⟩ env _ false).state _
    | accept env m tuple listener seg =>
      exact (Lived.first (t := m.acceptTcb env tuple listener seg) ⟨rfl, rfl⟩ env _ true).state _
  quiet as t u hquiet h := by
    cases hquiet with
    | conn hstep => exact h.connStep hstep
    | callbacks t onReceive onClose => exact h.quiet (a := .callbacks onReceive onClose) rfl 0 []
    | receiveSyn t seg => exact h.receive _
    | rcvNxt t seq => exact h.receive _
    | popOoo t =>
      rw [popOoo]
      split
      · exact h
      · exact h.receive _
    | stash t seq data =>
      rw [addToOooQueue]
      split
      · exact h
      · exact h.receive _
    | reopen t seg now =>
      have hcall := h.quiet (a := .second ⟨now, fun _ _ => 0, false⟩ seg) rfl 0 []
      rwa [ConnCall.run, Conn.sendSegment_syn _ (Or.inr rfl)] at hcall
    | state t s => exact h.state s
    | release t => exact h.quiet (a := .release) rfl 0 []
  ack as t seg env p tr h _ := h.call (.processAck env seg) p tr
  history as t h := ⟨t, h⟩

/-- **What a connection of the manager processes over a run, a run of this machine does.** -/
theorem lived (localIp : UInt32) (p : Ptr) (xs : List (NeuStack.Input σ)) :
    ∃ t, Lived ((init localIp).history p xs) t := (lived_recorded.run localIp p xs).1

/-! ### A segment that is lost -/

/-- The clock of a call. -/
def clock (now : Nat) : Env := ⟨now, fun _ _ => 0, false⟩

/-- A connection to a peer, before its SYN; its buffers are small. -/
def caller : TCB (TCPCubic Unit) :=
  ({ TCPConnectionManager.init 0x0a000001 with
      defaultOptions := { sendBufferSize := 16 } }).connectTcb (clock 0)
    ⟨0x0a000001, 0x0a000002, 5000, 80⟩ none

/-- What the peer of `caller` acknowledges. -/
def fromPeer (flags : UInt8) (ackNum : BitVec 32) : TCPSegment :=
  ⟨0x0a000002, 0x0a000001, 80, 5000, 1, ackNum, flags, 65535, []⟩

/-- The connection is opened and sends a byte; then the peer acknowledges the given numbers
at the given times. -/
def sendsByte (acks : List (Nat × BitVec 32)) : List Input :=
  let opening : List ConnCall :=
    [.first (clock 0) 0 false, .state .synSent, .receive { irs := 1, rcvNxt := 2 },
      .processAck (clock 1) (fromPeer (TCPFlags.syn ||| TCPFlags.ack) 1), .ack (clock 1),
      .state .established, .send (clock 2) [7]]
  let answers : List ConnCall :=
    acks.map fun (now, ackNum) => .processAck (clock now) (fromPeer TCPFlags.ack ackNum)
  (opening ++ answers).map fun call => { call }

theorem samples_genuine_of_answer :
    AllGenuine (GuardedRun.run step ⟨caller, [], []⟩ (sendsByte [(10, 2)])).seen ∧
      .acked 10 2 (some 8) ∈ (GuardedRun.run step ⟨caller, [], []⟩ (sendsByte [(10, 2)])).seen :=
  ⟨samples_genuine ⟨rfl, rfl⟩ (by decide +kernel), by decide +kernel⟩

/-- Three duplicates, and the byte goes out again; the answer gives the time since it went
out first. -/
theorem misled : ¬ ∀ (t : TCB (TCPCubic Unit)) (xs : List Input), t.Unsent →
    AllGenuine (GuardedRun.run step ⟨t, [], []⟩ xs).seen := by
  intro h
  have hgenuine := h caller (sendsByte [(3, 1), (4, 1), (5, 1), (10, 2)]) ⟨rfl, rfl⟩
  generalize hlog : (GuardedRun.run step ⟨caller, [], []⟩ _).seen = log at hgenuine
  have hlast : log.dropLast ++ [.acked 10 2 (some 8)] = log := by
    rw [← hlog]
    decide +kernel
  have hprefix : log.dropLast ++ [.acked 10 2 (some 8)] <+: log := by
    refine ⟨[], ?_⟩
    rw [List.append_nil, hlast]
  have hnot : ¬ Genuine log.dropLast 10 2 8 := by
    rw [← hlog]
    decide +kernel
  exact hnot (hgenuine _ 10 2 8 hprefix)

end Life

end NeuStack
