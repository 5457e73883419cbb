import NeuStack.ManagerEvents
import NeuStack.Reassembly

/-! # The received stream

`handle_data` and `deliver_ooo_data` reassemble what the peer sent: the receive
side of a TCB stands for a `Reassembly.Assembler` (`receiveOf`), the positions of
the stream being sequence numbers behind the SYN.  `Receiving.handleData` is the
simulation; what the application does in its callbacks does not touch it
(`CallMove.receiving`).
-/
namespace NeuStack
variable {σ : Type}

open Reassembly

/-- The bytes an event hands to the application of the connection at `p`. -/
def Event.dataFor (p : Ptr) : Event → List UInt8
  | .onReceive q _ data => if q = p then data else []
  | _ => []

theorem Event.From.dataFor {p q : Ptr} {ev : Event} (h : ev.From q) : ev.dataFor p = [] := by
  cases h <;> rfl

/-- The segment has the byte with sequence number `seq`. -/
def TCPSegment.Carries (seg : TCPSegment) (seq : BitVec 32) : Prop :=
  (seq - seg.seqNum).toNat < seg.dataLength

/-- The segment brings a part of the stream `S` that follows a SYN with number `irs`. -/
structure TCPSegment.OfStream (S : List UInt8) (irs : BitVec 32) (seg : TCPSegment) :
    Prop where
  cut : ∃ off, off + seg.dataLength ≤ S.length ∧
    seg.seqNum = irs + 1 + BitVec.ofNat 32 off ∧ seg.data = (S.drop off).take seg.dataLength
  mss : seg.dataLength ≤ tcpMssMax

namespace TCPConnectionManager

/-- What the application of the connection at `p` was handed so far. -/
def received (m : TCPConnectionManager σ) (p : Ptr) : List UInt8 :=
  m.trace.flatMap (Event.dataFor p)

variable {m m' : TCPConnectionManager σ} {p : Ptr} {t : TCB σ} {r : TCBReceive} {room n : Nat}
  {data pre output : List UInt8} {irs : BitVec 32}

theorem received_append {evs : List Event} (h : m'.trace = m.trace ++ evs)
    (hevs : ∀ ev ∈ evs, ev.dataFor p = []) : m'.received p = m.received p := by
  rw [received, h, List.flatMap_append, List.flatMap_eq_nil_iff.mpr hevs, List.append_nil]
  rfl

/-- **The receive side of the connection at `p`**, and what its application was handed. -/
structure Receiving (m : TCPConnectionManager σ) (p : Ptr) (r : TCBReceive) (room : Nat)
    (data : List UInt8) : Prop where
  ready : Ready m p
  tcb : ∃ t, m.heap p = some t ∧ t.toTCBReceive = r ∧ t.options.recvBufferSize = room
  received : m.received p = data

theorem Receiving.of_heap (h : m.Receiving p r room data) (hready : Ready m' p)
    (hp : m'.heap p = m.heap p) (hdata : m'.received p = m.received p) :
    m'.Receiving p r room data :=
  ⟨hready, hp ▸ h.tcb, hdata.trans h.received⟩

variable [ICongestionControl σ]

/-- A function that works on one connection leaves the receive side alone. -/
theorem Receiving.store (h : m.Receiving p r room data) {q : Ptr} {u : TCB σ} {c : Conn σ}
    {x : Option TCPSegment} (hready : Ready (m.store c) p) (hq : m.heap q = some u)
    (hpath : Conn.Path x ⟨q, u, m.trace⟩ c) : (m.store c).Receiving p r room data := by
  have hptr : c.ptr = q := hpath.ptr
  subst hptr
  obtain ⟨evs, htrace, hevs⟩ := hpath.grows
  have hdata : (m.store c).received p = m.received p :=
    received_append htrace fun ev hev => (hevs ev hev).dataFor
  obtain ⟨t, hp, hr, hroom⟩ := h.tcb
  rcases eq_or_ne p c.ptr with rfl | hne
  · rw [hp] at hq
    cases hq
    refine ⟨hready, ⟨c.tcb, store_heap_self m c, hpath.receive.trans hr, ?_⟩,
      hdata.trans h.received⟩
    rw [← hroom]
    exact congrArg (·.options.recvBufferSize) hpath.identity
  · exact h.of_heap hready (store_heap_ne m hne) hdata

/-! ## The application's calls -/

theorem CallMove.receiving {a : Call} (hmove : CallMove a m m')
    (h : m.Receiving p r room data) (hready : Ready m' p) : m'.Receiving p r room data := by
  have hwf := h.ready.wellFormed
  obtain ⟨t, hp, hact⟩ := h.ready.heap
  obtain ⟨u', hu', -⟩ := hready.heap
  cases hmove with
  | conn _ hq hstep => exact h.store hready hq hstep.path
  | @setCallbacks _ _ q u onReceive onClose _ hq =>
    rcases eq_or_ne p q with rfl | hne
    · obtain ⟨v, hv, hr, hroom⟩ := h.tcb
      rw [hq] at hv
      cases hv
      exact ⟨hready, ⟨_, store_heap_self m ⟨p, _, _⟩, hr, hroom⟩, h.received⟩
    · exact h.of_heap hready (store_heap_ne m hne) rfl
  | setDefaultOptions => exact h.of_heap hready rfl rfl
  | listen _ port onAccept =>
    refine h.of_heap hready (listen_heap port onAccept (hwf.ne_nextAddr hp)) ?_
    rw [TCPConnectionManager.received, listen_trace]
    rfl
  | unlisten port =>
    refine h.of_heap hready ?_ ?_
    · rw [hu', eraseListener_heap_some hu']
    · rw [TCPConnectionManager.received, eraseListener_trace]
      rfl
  | connect =>
    refine h.of_heap hready ((Function.update_of_ne (hwf.ne_nextAddr hp) ..)) ?_
    refine received_append (List.append_assoc ..) fun ev hev => ?_
    simp only [List.mem_append, List.mem_cons, List.not_mem_nil, or_false] at hev
    rcases hev with (rfl | rfl | rfl) | rfl <;> rfl
  | @abort _ q u hq hs =>
    have htrace : ((m.log (.ended q .synSent .localClose)).eraseConnection u.tTuple).trace =
      m.trace ++ [.ended q .synSent .localClose] := eraseConnection_trace _ _
    refine h.of_heap hready ?_ (received_append htrace fun ev hev => ?_)
    · rw [hu']
      exact (eraseConnection_heap_some hu').symm
    · rw [List.mem_singleton.mp hev]
      rfl

namespace Receiving
variable {ctx : Context σ}

theorem call (h : m.Receiving p r room data) (env : Env) (a : Call) :
    (m.call env a).Receiving p r room data := by
  have hpath := path_call h.ready.wellFormed env a
  generalize m.call env a = m' at hpath
  induction hpath with
  | refl => exact h
  | tail _ hmove ih =>
    have hwork : WorkPath ⟨.silent 0 0, .call a⟩ ⟨_, none⟩ ⟨_, none⟩ :=
      .single (.call none (Or.inl rfl) hmove)
    exact hmove.receiving ih (ih.ready.work hwork)

theorem calls (h : m.Receiving p r room data) (env : Env) (as : List Call) :
    (m.calls env as).Receiving p r room data := by
  induction as generalizing m with
  | nil => exact h
  | cons a as ih => exact ih (h.call env a)

/-- A function that works on the connection itself. -/
theorem on (h : m.Receiving p r room data) {x : Input σ} {f : Conn σ → Conn σ}
    (hf : ∀ t, t.state.isActive = true →
      Conn.ConnStep x.seg ⟨p, t, m.trace⟩ (f ⟨p, t, m.trace⟩)) :
    (m.on p f).Receiving p r room data := by
  have hready : Ready (m.on p f) p := h.ready.work (path_on_active h.ready hf)
  obtain ⟨t, hp, hact⟩ := h.ready.heap
  rw [on_of_heap hp] at hready ⊢
  exact h.store hready hp (hf t hact).path

/-- **Data is handed to the application**, whatever it does with it. -/
theorem deliverData (h : m.Receiving p r room data) (ctx : Context σ) (new : List UInt8) :
    (m.deliverData ctx p new).Receiving p r room (data ++ new) := by
  obtain ⟨t, hp, hr, hroom⟩ := h.tcb
  rw [TCPConnectionManager.deliverData, hp]
  have hlog : (m.log (.onReceive p t.onReceive new)).Receiving p r room (data ++ new) := by
    refine ⟨⟨h.ready.wellFormed.log _, h.ready.inState⟩, ⟨t, hp, hr, hroom⟩, ?_⟩
    rw [TCPConnectionManager.received, ← h.received, TCPConnectionManager.received,
      TCPConnectionManager.log, List.flatMap_append, List.flatMap_singleton, Event.dataFor,
      if_pos rfl]
  have hinvoke : (m.invoke ctx (.onReceive p t.onReceive new) t.onReceive).Receiving p r room
      (data ++ new) := by
    rw [invoke]
    split
    · exact hlog.calls _ _
    · exact hlog
  refine hinvoke.on (x := ⟨ctx, .timer []⟩) fun u hact => .updateRcvWnd _ fun hl => ?_
  rw [show u.state = .listen from hl] at hact
  cases hact

omit [ICongestionControl σ] in
/-- The receive variables are written, while the TCB stays what it was otherwise. -/
theorem modify (h : m.Receiving p r room data) {g : TCB σ → TCB σ} {r' : TCBReceive}
    (hready : Ready (m.modify p g) p)
    (hg : ∀ t : TCB σ, t.toTCBReceive = r → t.options.recvBufferSize = room →
      (g t).toTCBReceive = r' ∧ (g t).options = t.options) :
    (m.modify p g).Receiving p r' room data := by
  obtain ⟨t, hp, hr, hroom⟩ := h.tcb
  obtain ⟨hr', hopt⟩ := hg t hr hroom
  rw [modify_of_heap hp] at hready ⊢
  exact ⟨hready, ⟨g t, store_heap_self m ⟨p, g t, m.trace⟩, hr', by rw [hopt, hroom]⟩, h.received⟩

theorem setRcvNxt (h : m.Receiving p r room data) (seq : BitVec 32) :
    (m.modify p (setRcvNxt seq)).Receiving p { r with rcvNxt := seq } room data := by
  refine h.modify ?_ ?_
  · obtain ⟨t, hp, hact⟩ := h.ready.heap
    rw [modify_of_heap hp]
    have hwork : WorkPath ⟨.silent 0 0, .timer []⟩ ⟨m, some (p, seq)⟩ ⟨_, none⟩ :=
      .single (.advanceRcv hp hact)
    exact h.ready.work hwork
  · rintro t rfl -
    exact ⟨rfl, rfl⟩

theorem popOoo (h : m.Receiving p r room data) {front : OutOfOrderSegment}
    {rest : List OutOfOrderSegment} (hq : r.oooQueue = front :: rest) :
    (m.modify p popOoo).Receiving p
      { r with oooQueue := rest, oooSize := r.oooSize - front.data.length } room data := by
  refine h.modify (h.ready.work (path_popOoo (x := ⟨.silent 0 0, .timer []⟩) h.ready)) ?_
  rintro t rfl -
  rw [TCPConnectionManager.popOoo, hq]
  exact ⟨rfl, rfl⟩

end Receiving

/-! ## The receive side as an assembler -/

/-- The sequence number of the byte at position `n`. -/
def seqAt (irs : BitVec 32) (n : Nat) : BitVec 32 := irs + 1 + BitVec.ofNat 32 n

/-- A piece of the stream as the queue holds it. -/
def entryOf (irs : BitVec 32) (pc : Piece UInt8) : OutOfOrderSegment :=
  ⟨seqAt irs pc.start, seqAt irs pc.stop, pc.data⟩

/-- The receive variables that stand for an assembler. -/
def receiveOf (irs : BitVec 32) (a : Assembler UInt8) : TCBReceive where
  irs := irs
  rcvNxt := seqAt irs a.next
  oooQueue := a.pending.map (entryOf irs)
  oooSize := size a.pending

section Offsets
variable (irs : BitVec 32) {i j : Nat}

theorem seqLt_seqAt (hi : i < 2 ^ 31) (hj : j < 2 ^ 31) :
    seqLt (seqAt irs i) (seqAt irs j) = true ↔ i < j :=
  SerialNumber.lt_add _ (by omega) (by omega)

theorem seqGt_seqAt (hi : i < 2 ^ 31) (hj : j < 2 ^ 31) :
    seqGt (seqAt irs i) (seqAt irs j) = true ↔ j < i :=
  SerialNumber.gt_add _ (by omega) (by omega)

theorem seqLe_seqAt (hi : i < 2 ^ 31) (hj : j < 2 ^ 31) :
    seqLe (seqAt irs i) (seqAt irs j) = true ↔ i ≤ j :=
  SerialNumber.le_add _ (by omega) (by omega)

theorem seqAt_sub (hji : j ≤ i) (hi : i < 2 ^ 31) :
    (seqAt irs i - seqAt irs j).toNat = i - j :=
  SerialNumber.toNat_sub_of_le _ hji (by omega)

theorem seqAt_inj (hi : i < 2 ^ 31) (hj : j < 2 ^ 31) : seqAt irs i = seqAt irs j ↔ i = j :=
  ⟨SerialNumber.add_ofNat_inj _ (by omega) (by omega), congrArg _⟩

theorem seqAt_add (i j : Nat) : seqAt irs i + BitVec.ofNat 32 j = seqAt irs (i + j) :=
  SerialNumber.add_ofNat_add _ i j

/-- The new entry goes where an assembler puts the piece. -/
theorem map_orderedInsert {ps : List (Piece UInt8)} {pc : Piece UInt8}
    (hps : ∀ q ∈ ps, q.stop < 2 ^ 31) (hstart : pc.start < 2 ^ 31) :
    (ps.orderedInsert (·.start ≤ ·.start) pc).map (entryOf irs) =
      (ps.map (entryOf irs)).takeWhile (fun e => seqLt e.seqStart (seqAt irs pc.start)) ++
        entryOf irs pc ::
          (ps.map (entryOf irs)).dropWhile (fun e => seqLt e.seqStart (seqAt irs pc.start)) := by
  have hlt (q : Piece UInt8) (hq : q ∈ ps) : q.start < 2 ^ 31 :=
    Nat.lt_of_le_of_lt (Nat.le_add_right ..) (hps q hq)
  rw [List.map_orderedInsert _ (fun e e' => ¬ seqLt e'.seqStart e.seqStart = true) (entryOf irs),
    List.orderedInsert_eq_take_drop]
  · simp only [not_not, Bool.decide_eq_true, entryOf]
  · intro q hq
    rw [entryOf, entryOf, seqLt_seqAt irs hstart (hlt q hq), Nat.not_lt]
  · intro q hq
    rw [entryOf, entryOf, seqLt_seqAt irs (hlt q hq) hstart, Nat.not_lt]

end Offsets

/-! ## Draining the queue -/

namespace Receiving
variable {ctx : Context σ} {a : Assembler UInt8} {ps : List (Piece UInt8)} {pc : Piece UInt8}

omit [ICongestionControl σ] in
theorem front (h : m.Receiving p r room data) :
    ((m.heap p).bind fun t => t.oooQueue.head?.map (t.rcvNxt, ·)) =
      r.oooQueue.head?.map (r.rcvNxt, ·) := by
  obtain ⟨t, hp, rfl, -⟩ := h.tcb
  rw [hp]
  rfl

theorem popPiece (h : m.Receiving p (receiveOf irs ⟨n, output, pc :: ps⟩) room data) :
    (m.modify p TCPConnectionManager.popOoo).Receiving p (receiveOf irs ⟨n, output, ps⟩) room
      data := by
  have hsize : size (pc :: ps) - pc.data.length = size ps := by
    rw [Assembler.size_cons, Nat.add_sub_cancel_left]
  rw [receiveOf, ← hsize]
  exact h.popOoo rfl

/-- **`deliver_ooo_data` drains the queue.** -/
theorem deliverOooData (h : m.Receiving p (receiveOf irs ⟨n, output, ps⟩) room (pre ++ output))
    (ctx : Context σ) (hps : ∀ pc ∈ ps, pc.stop < 2 ^ 31) (hn : n < 2 ^ 31) {fuel : Nat}
    (hfuel : ps.length ≤ fuel) : (m.deliverOooData ctx p fuel).Receiving p
      (receiveOf irs (drain ps n output)) room (pre ++ (drain ps n output).output) := by
  induction ps generalizing m n output fuel with
  | nil =>
    cases fuel with
    | zero => exact h
    | succ fuel =>
      rw [TCPConnectionManager.deliverOooData, h.front]
      exact h
  | cons pc rest ih =>
    obtain ⟨hstop, hrest⟩ := List.forall_mem_cons.mp hps
    have hstart : pc.start < 2 ^ 31 := Nat.lt_of_le_of_lt (Nat.le_add_right ..) hstop
    obtain ⟨fuel, rfl⟩ := Nat.exists_eq_succ_of_ne_zero
      (Nat.ne_of_gt (Nat.lt_of_lt_of_le (Nat.succ_pos _) hfuel))
    have hfuel' : rest.length ≤ fuel := Nat.le_of_succ_le_succ hfuel
    rw [TCPConnectionManager.deliverOooData, h.front]
    simp only [receiveOf, List.map_cons, List.head?_cons, Option.map_some, entryOf,
      seqGt_seqAt irs hstart hn, seqLe_seqAt irs hstop hn, seqLt_seqAt irs hstart hn]
    rw [drain]
    split
    · exact h
    split
    · exact ih h.popPiece hrest hn hfuel'
    · rename_i hgap hold
      have hskip : (if pc.start < n then (seqAt irs n - seqAt irs pc.start).toNat else 0) =
          n - pc.start := by
        split
        · exact seqAt_sub irs (by omega) hn
        · omega
      rw [hskip]
      have hdeliver := (h.deliverData ctx (pc.data.drop (n - pc.start))).setRcvNxt
        (seqAt irs pc.stop)
      rw [List.append_assoc] at hdeliver
      exact ih (popPiece hdeliver) hrest hstop hfuel'

omit [ICongestionControl σ] in
theorem oooLength (h : m.Receiving p (receiveOf irs ⟨n, output, ps⟩) room data) :
    m.oooLength p = ps.length := by
  obtain ⟨t, hp, hr, -⟩ := h.tcb
  have hq : t.oooQueue = ps.map (entryOf irs) := congrArg TCBReceive.oooQueue hr
  rw [TCPConnectionManager.oooLength, hp]
  dsimp only
  rw [hq, List.length_map]

/-! ## A segment -/

/-- A segment ahead of the stream is kept, if there is room. -/
theorem stash (h : m.Receiving p (receiveOf irs a) room data) {seg : TCPSegment}
    (hseq : seg.seqNum = seqAt irs pc.start) (hdata : seg.data = pc.data)
    (hps : ∀ q ∈ a.pending, q.stop < 2 ^ 31) (hstart : pc.start < 2 ^ 31) :
    (m.modify p (addToOooQueue seg.seqNum seg.data)).Receiving p
      (receiveOf irs (if room < size a.pending + pc.data.length then a
        else { a with pending := a.pending.orderedInsert (·.start ≤ ·.start) pc })) room data := by
  refine h.modify ?_ ?_
  · obtain ⟨t, hp, hact⟩ := h.ready.heap
    rw [modify_of_heap hp]
    have hwork : WorkPath ⟨.silent 0 0, .segment seg⟩ ⟨m, none⟩ ⟨_, none⟩ :=
      .single (.stash rfl hp hact)
    exact h.ready.work hwork
  · intro t hr hroom
    have hq : t.oooQueue = a.pending.map (entryOf irs) := congrArg TCBReceive.oooQueue hr
    have hsize : t.oooSize = size a.pending := congrArg TCBReceive.oooSize hr
    rw [addToOooQueue, hroom, hsize, hdata]
    split
    · exact ⟨hr, rfl⟩
    · refine ⟨?_, rfl⟩
      rw [receiveOf, map_orderedInsert irs hps hstart, ← hq, Assembler.size_orderedInsert]
      dsimp only
      rw [hr]
      rw [hseq, seqAt_add]
      rfl

/-- What `handle_data` does with a piece of the stream. -/
theorem handleData_eq (h : m.Receiving p (receiveOf irs a) room data) (ctx : Context σ)
    {seg : TCPSegment} (hseq : seg.seqNum = seqAt irs pc.start) (hdata : seg.data = pc.data)
    (hnext : a.next < 2 ^ 31) (hstart : pc.start < 2 ^ 31)
    (hstop : pc.data.length ≠ 0 → pc.stop < 2 ^ 31) :
    m.handleData ctx p seg =
      if pc.data.length = 0 ∨ pc.stop ≤ a.next then m
      else if pc.start ≤ a.next then
        let m' := (m.deliverData ctx p (pc.data.drop (a.next - pc.start))).modify p
          (TCPConnectionManager.setRcvNxt (seqAt irs pc.stop))
        (m'.deliverOooData ctx p (m'.oooLength p)).on p (·.acknowledgeData ctx.toEnv)
      else
        (m.modify p (addToOooQueue seg.seqNum seg.data)).on p
          (·.sendSegment ctx.toEnv TCPFlags.ack []) := by
  obtain ⟨t, hp, hr, -⟩ := h.tcb
  have hrcv : t.rcvNxt = seqAt irs a.next := congrArg TCBReceive.rcvNxt hr
  rw [TCPConnectionManager.handleData, hp]
  simp only [TCPSegment.dataLength, hdata, hseq, hrcv, seqAt_add, seqLt_seqAt irs hstart hnext]
  by_cases hempty : pc.data.length = 0
  · rw [if_pos hempty, if_pos (Or.inl hempty)]
  have hlt := hstop hempty
  rw [if_neg hempty, show pc.start + pc.data.length = pc.stop from rfl]
  simp only [seqLe_seqAt irs hlt hnext, hempty, false_or]
  by_cases hold : pc.stop ≤ a.next
  · rw [if_pos hold, if_pos hold]
  rw [if_neg hold, if_neg hold]
  by_cases hbefore : pc.start < a.next
  · -- The beginning of the segment is old.
    have hlong : ¬ pc.data.length ≤ a.next - pc.start := by
      rw [Piece.stop] at hold
      omega
    simp only [hbefore, if_true, seqAt_sub irs (Nat.le_of_lt hbefore) hnext, hlong,
      decide_false, Bool.and_false, Bool.false_eq_true, if_false, Nat.le_of_lt hbefore]
  · have hnot : seqLt (seqAt irs pc.start) (seqAt irs a.next) = false := by
      rw [← Bool.not_eq_true, seqLt_seqAt irs hstart hnext]
      exact hbefore
    simp only [hbefore, if_false, hnot, Bool.false_and, Bool.false_eq_true, List.drop_zero,
      seqAt_inj irs hstart hnext]
    by_cases heq : pc.start = a.next
    · simp only [heq, if_true, Nat.le_refl, Nat.sub_self, List.drop_zero]
    · rw [if_neg heq, if_neg (by omega)]

/-- **`handle_data` is the assembler's `offer`.** -/
theorem handleData (h : m.Receiving p (receiveOf irs a) room (pre ++ a.output)) (ctx : Context σ)
    {S : List UInt8} (hok : a.Ok S room) (hS : S.length < 2 ^ 31) {seg : TCPSegment}
    (hseq : seg.seqNum = seqAt irs pc.start) (hdata : seg.data = pc.data) (hof : pc.Of S)
    (hstart : pc.start ≤ S.length) :
    (m.handleData ctx p seg).Receiving p (receiveOf irs (a.offer room pc)) room
      (pre ++ (a.offer room pc).output) := by
  have hcut (q : Piece UInt8) (hq : q ∈ a.pending) : q.stop < 2 ^ 31 :=
    Nat.lt_of_le_of_lt ((hok.cut q hq).1.stop_le (hok.cut q hq).2) hS
  have hstop (hne : pc.data.length ≠ 0) : pc.stop < 2 ^ 31 :=
    Nat.lt_of_le_of_lt (hof.stop_le hne) hS
  have hfirst : pc.start < 2 ^ 31 := Nat.lt_of_le_of_lt hstart hS
  rw [h.handleData_eq ctx hseq hdata (Nat.lt_of_le_of_lt hok.next_le hS) hfirst hstop,
    Assembler.offer]
  split
  · exact h
  rename_i hnew
  rw [not_or] at hnew
  split
  · have hdeliver : ((m.deliverData ctx p (pc.data.drop (a.next - pc.start))).modify p
        (TCPConnectionManager.setRcvNxt (seqAt irs pc.stop))).Receiving p
          (receiveOf irs ⟨pc.stop, a.output ++ pc.data.drop (a.next - pc.start), a.pending⟩) room
          (pre ++ (a.output ++ pc.data.drop (a.next - pc.start))) := by
      rw [← List.append_assoc]
      exact (h.deliverData ctx _).setRcvNxt _
    have hdrain := hdeliver.deliverOooData ctx hcut (hstop hnew.1)
      (Nat.le_of_eq hdeliver.oooLength.symm)
    exact hdrain.on (x := ⟨ctx, .timer []⟩) fun u hact => .acknowledgeData _ _ hact
  · have hstash := h.stash hseq hdata hcut hfirst
    have hack := hstash.on (x := ⟨ctx, .timer []⟩) (f := fun c => c.sendSegment ctx.toEnv
      TCPFlags.ack []) fun u hact => .ack _ _ (Or.inl hact)
    split at hack <;> rename_i hroom
    · rw [if_pos hroom]
      exact hack
    · rw [if_neg hroom]
      exact hack

end Receiving

/-! ## Any sequence of segments -/

/-- `handle_data` for one segment after the other. -/
def handleAll (p : Ptr) (arrivals : List (Context σ × TCPSegment)) (m : TCPConnectionManager σ) :
    TCPConnectionManager σ :=
  arrivals.foldl (fun m a => m.handleData a.1 p a.2) m

/-- `add_to_ooo_queue` has no room for the data of the segment. -/
def DropsData (m : TCPConnectionManager σ) (p : Ptr) (seg : TCPSegment) : Prop :=
  ∃ t, m.heap p = some t ∧ seg.dataLength ≠ 0 ∧ seqGt seg.seqNum t.rcvNxt = true ∧
    t.options.recvBufferSize < t.oooSize + seg.dataLength

/-- No segment is dropped for lack of room. -/
def KeepsData (p : Ptr) : List (Context σ × TCPSegment) → TCPConnectionManager σ → Prop
  | [], _ => True
  | a :: as, m => ¬ m.DropsData p a.2 ∧ KeepsData p as (m.handleData a.1 p a.2)

/-- The part of the stream that a segment brings. -/
def pieceOf (irs : BitVec 32) (seg : TCPSegment) : Piece UInt8 :=
  ⟨(seg.seqNum - (irs + 1)).toNat, seg.data⟩

section Pieces
variable {S : List UInt8} {seg : TCPSegment}

theorem seqAt_pieceOf (irs : BitVec 32) (seg : TCPSegment) :
    seqAt irs (pieceOf irs seg).start = seg.seqNum :=
  (SerialNumber.eq_add_sub (irs + 1) seg.seqNum).symm

theorem pieceOf_eq (h : seg.OfStream S irs) (hS : S.length < 2 ^ 31) :
    ∃ off, pieceOf irs seg = ⟨off, seg.data⟩ ∧ off + seg.dataLength ≤ S.length ∧
      seg.data = (S.drop off).take seg.dataLength := by
  obtain ⟨off, hle, hseq, hdata⟩ := h.cut
  have hoff := seqAt_sub irs (Nat.zero_le off) (by omega)
  rw [Nat.sub_zero, seqAt, ← hseq, seqAt, BitVec.add_zero] at hoff
  exact ⟨off, by rw [pieceOf, hoff], hle, hdata⟩

theorem pieceOf_cut (h : seg.OfStream S irs) (hS : S.length < 2 ^ 31) :
    (pieceOf irs seg).Of S ∧ (pieceOf irs seg).start ≤ S.length := by
  obtain ⟨off, hpc, hle, hdata⟩ := pieceOf_eq h hS
  rw [hpc]
  refine ⟨?_, Nat.le_trans (Nat.le_add_right ..) hle⟩
  rw [Piece.Of]
  dsimp only
  rw [hdata]
  exact List.take_prefix _ _

theorem carries_iff (h : seg.OfStream S irs) (hS : S.length < 2 ^ 31) {i : Nat}
    (hi : i ≤ S.length) : seg.Carries (seqAt irs i) ↔ (pieceOf irs seg).Covers i := by
  obtain ⟨off, hpc, hle, -⟩ := pieceOf_eq h hS
  have hseq := seqAt_pieceOf irs seg
  rw [hpc] at hseq ⊢
  rw [TCPSegment.Carries, ← hseq, Piece.Covers, Piece.stop]
  show _ ↔ off ≤ i ∧ i < off + seg.dataLength
  rcases Nat.lt_or_ge i off with hlt | hge
  · rw [seqAt, seqAt, SerialNumber.toNat_sub_of_lt _ hlt (by omega)]
    omega
  · rw [seqAt_sub irs hge (by omega)]
    omega

end Pieces

namespace Receiving
variable {a : Assembler UInt8} {S : List UInt8} {arrivals : List (Context σ × TCPSegment)}

theorem handleAll (h : m.Receiving p (receiveOf irs a) room (pre ++ a.output))
    (hok : a.Ok S room) (hS : S.length < 2 ^ 31) (hseg : ∀ b ∈ arrivals, b.2.OfStream S irs) :
    (m.handleAll p arrivals).Receiving p
      (receiveOf irs ((arrivals.map (pieceOf irs ·.2)).foldl (Assembler.offer room) a)) room
      (pre ++ ((arrivals.map (pieceOf irs ·.2)).foldl (Assembler.offer room) a).output) := by
  induction arrivals generalizing m a with
  | nil => exact h
  | cons b arrivals ih =>
    obtain ⟨hfirst, hrest⟩ := List.forall_mem_cons.mp hseg
    obtain ⟨hof, hstart⟩ := pieceOf_cut hfirst hS
    exact ih (h.handleData b.1 hok hS (seqAt_pieceOf irs b.2).symm rfl hof hstart)
      (hok.offer hof) hrest

omit [ICongestionControl σ] in
/-- What the assembler drops, the queue has no room for. -/
theorem drops (h : m.Receiving p (receiveOf irs a) room data)
    (hS : S.length < 2 ^ 31) {seg : TCPSegment} (hseg : seg.OfStream S irs)
    (hdrop : a.Drops room (pieceOf irs seg)) : m.DropsData p seg := by
  obtain ⟨t, hp, hr, hroom⟩ := h.tcb
  obtain ⟨hne, hahead, hfull⟩ := hdrop
  have hrcv : t.rcvNxt = seqAt irs a.next := congrArg TCBReceive.rcvNxt hr
  have hsize : t.oooSize = size a.pending := congrArg TCBReceive.oooSize hr
  have hstart := (pieceOf_cut hseg hS).2
  refine ⟨t, hp, hne, ?_, ?_⟩
  · rw [hrcv, ← seqAt_pieceOf irs seg, seqGt_seqAt irs (by omega) (by omega)]
    exact hahead
  · rw [hroom, hsize]
    exact hfull

theorem roomy (h : m.Receiving p (receiveOf irs a) room (pre ++ a.output)) (hok : a.Ok S room)
    (hS : S.length < 2 ^ 31) (hseg : ∀ b ∈ arrivals, b.2.OfStream S irs)
    (hkeep : KeepsData p arrivals m) :
    Assembler.Roomy room a (arrivals.map (pieceOf irs ·.2)) := by
  induction arrivals generalizing m a with
  | nil => trivial
  | cons b arrivals ih =>
    obtain ⟨hfirst, hrest⟩ := List.forall_mem_cons.mp hseg
    obtain ⟨hof, hstart⟩ := pieceOf_cut hfirst hS
    exact ⟨fun hdrop => hkeep.1 (h.drops hS hfirst hdrop),
      ih (h.handleData b.1 hok hS (seqAt_pieceOf irs b.2).symm rfl hof hstart)
        (hok.offer hof) hrest hkeep.2⟩

end Receiving

omit [ICongestionControl σ] in
/-- A connection that has received nothing yet. -/
theorem Receiving.fresh (h : m.WellFormed) (hp : m.heap p = some t)
    (hact : t.state.isActive = true) (hrcv : t.rcvNxt = t.irs + 1) (hqueue : t.oooQueue = [])
    (hsize : t.oooSize = 0) :
    m.Receiving p (receiveOf t.irs {}) t.options.recvBufferSize (m.received p ++ []) := by
  have hk : (t.tTuple, p) ∈ m.connections := by
    refine h.mem_connections hp ?_ ?_ <;>
    · intro hs
      rw [hs] at hact
      cases hact
  refine ⟨⟨h, t.state, hact, t, hp, hk, rfl⟩, ⟨t, hp, ?_, rfl⟩, (List.append_nil _).symm⟩
  rw [receiveOf, seqAt, BitVec.add_zero, ← hrcv]
  show t.toTCBReceive = ⟨t.irs, t.rcvNxt, [], 0⟩
  rw [← hqueue, ← hsize]

/-- **What reassembly promises** of the TCB `u` behind the segments `arrivals` of the stream
`S`, which came to the connection `t`. -/
structure Reassembled (m : TCPConnectionManager σ) (p : Ptr) (t : TCB σ) (S : List UInt8)
    (arrivals : List (Context σ × TCPSegment)) (u : TCB σ) : Prop where
  inStream : (u.rcvNxt - (t.irs + 1)).toNat ≤ S.length
  delivered : (m.handleAll p arrivals).received p =
    m.received p ++ S.take (u.rcvNxt - (t.irs + 1)).toNat
  sorted : u.oooQueue.Pairwise fun e e' => seqLe e.seqStart e'.seqStart = true
  ahead : ∀ e ∈ u.oooQueue, seqGt e.seqStart u.rcvNxt = true
  size : u.oooSize = (u.oooQueue.map (·.data.length)).sum
  size_le : u.oooSize ≤ u.options.recvBufferSize
  monotone : ∀ earlier later, arrivals = earlier ++ later →
    ∃ v, (m.handleAll p earlier).heap p = some v ∧ seqLe v.rcvNxt u.rcvNxt = true
  longest : KeepsData p arrivals m →
    (∀ i < (u.rcvNxt - (t.irs + 1)).toNat,
      ∃ a ∈ arrivals, a.2.Carries (t.irs + 1 + BitVec.ofNat 32 i)) ∧
    ∀ a ∈ arrivals, ¬ a.2.Carries u.rcvNxt

/-- **Any segmentation of a stream is reassembled.** -/
theorem handleAll_reassembles (h : m.WellFormed) (hp : m.heap p = some t)
    (hact : t.state.isActive = true) (hrcv : t.rcvNxt = t.irs + 1) (hqueue : t.oooQueue = [])
    (hsize : t.oooSize = 0) {S : List UInt8} (hS : S.length < 2 ^ 31)
    {arrivals : List (Context σ × TCPSegment)} (hseg : ∀ a ∈ arrivals, a.2.OfStream S t.irs) :
    ∃ u, (m.handleAll p arrivals).heap p = some u ∧ Reassembled m p t S arrivals u := by
  have hstart := Receiving.fresh h hp hact hrcv hqueue hsize
  have hok := Assembler.Ok.init S t.options.recvBufferSize
  have hcut : ∀ pc ∈ arrivals.map (pieceOf t.irs ·.2), pc.Of S := by
    intro pc hpc
    obtain ⟨a, ha, rfl⟩ := List.mem_map.mp hpc
    exact (pieceOf_cut (hseg a ha) hS).1
  have hend := hok.offers hcut
  have hall := hstart.handleAll hok hS hseg
  obtain ⟨u, hu, hr, hroom⟩ := hall.tcb
  set b := (arrivals.map (pieceOf t.irs ·.2)).foldl (Assembler.offer t.options.recvBufferSize) {}
    with hb
  have hnext : b.next < 2 ^ 31 := Nat.lt_of_le_of_lt hend.next_le hS
  have hrcv' : u.rcvNxt = seqAt t.irs b.next := congrArg TCBReceive.rcvNxt hr
  have hqueue' : u.oooQueue = b.pending.map (entryOf t.irs) := congrArg TCBReceive.oooQueue hr
  have hsize' : u.oooSize = size b.pending := congrArg TCBReceive.oooSize hr
  have hlen : (u.rcvNxt - (t.irs + 1)).toNat = b.next := by
    have hsub := seqAt_sub t.irs (Nat.zero_le b.next) hnext
    rwa [show seqAt t.irs 0 = t.irs + 1 from BitVec.add_zero _, ← hrcv'] at hsub
  have hbound (pc : Piece UInt8) (hpc : pc ∈ b.pending) : pc.start < 2 ^ 31 :=
    Nat.lt_of_le_of_lt (Nat.le_trans (Nat.le_add_right ..)
      ((hend.cut pc hpc).1.stop_le (hend.cut pc hpc).2)) hS
  refine ⟨u, hu, ?_, ?_, ?_, ?_, ?_, ?_, ?_, ?_⟩
  · rw [hlen]
    exact hend.next_le
  · rw [hlen, hall.received, hend.output]
  · rw [hqueue', List.pairwise_map]
    refine hend.sorted.imp_of_mem fun {pc q} hpc hq hle => ?_
    exact (seqLe_seqAt t.irs (hbound pc hpc) (hbound q hq)).mpr hle
  · intro e he
    rw [hqueue'] at he
    obtain ⟨pc, hpc, rfl⟩ := List.mem_map.mp he
    rw [hrcv']
    exact (seqGt_seqAt t.irs (hbound pc hpc) hnext).mpr (hend.ahead pc hpc)
  · rw [hsize', hqueue', List.map_map]
    rfl
  · rw [hsize', hroom]
    exact hend.size_le
  · rintro earlier later rfl
    rw [List.forall_mem_append] at hseg
    obtain ⟨v, hv, hrv, -⟩ := (hstart.handleAll hok hS hseg.1).tcb
    refine ⟨v, hv, ?_⟩
    have hle := Assembler.offers_next_le t.options.recvBufferSize
      ((earlier.map (pieceOf t.irs ·.2)).foldl (Assembler.offer t.options.recvBufferSize) {})
      (later.map (pieceOf t.irs ·.2))
    rw [← List.foldl_append, ← List.map_append, ← hb] at hle
    rw [hrcv', show v.rcvNxt = _ from congrArg TCBReceive.rcvNxt hrv]
    exact (seqLe_seqAt t.irs (Nat.lt_of_le_of_lt hle hnext) hnext).mpr hle
  · intro hkeep
    obtain ⟨hcov, hgap⟩ := Assembler.offers_next hcut (hstart.roomy hok hS hseg hkeep)
    rw [← hb] at hcov hgap
    rw [hlen]
    refine ⟨fun i hi => ?_, fun a ha hcarry => ?_⟩
    · obtain ⟨pc, hpc, hi'⟩ := hcov i hi
      obtain ⟨a, ha, rfl⟩ := List.mem_map.mp hpc
      exact ⟨a, ha, (carries_iff (hseg a ha) hS (by have := hend.next_le; omega)).mpr hi'⟩
    · rw [hrcv', carries_iff (hseg a ha) hS hend.next_le] at hcarry
      exact hgap ⟨_, List.mem_map_of_mem ha, hcarry⟩

/-! ### A stream that comes in pieces -/

/-- A host whose peer begins at `2 ^ 32 - 2`. -/
def receivingHost : TCPConnectionManager (TCPCubic Unit) :=
  GuardedRun.run TCPConnectionManager.step (init 0x0a000001) [
    ⟨.silent 0 0, .call (.connect 0x0a000002 80 5000 none)⟩,
    ⟨.silent 1 0, .segment ⟨0x0a000002, 0x0a000001, 80, 5000, 0xfffffffe, 1,
      TCPFlags.syn ||| TCPFlags.ack, 65535, []⟩⟩]

/-- The last two of five bytes, the first three, and the middle three again. -/
def pieces : List (Context (TCPCubic Unit) × TCPSegment) :=
  [(0x00000002, [4, 5]), (0xffffffff, [1, 2, 3]), (0, [2, 3, 4])].map fun part =>
    (.silent 2 0, ⟨0x0a000002, 0x0a000001, 80, 5000, part.1, 1, TCPFlags.ack, 65535, part.2⟩)

theorem receivingHost_receive : (receivingHost.heap 0).map
    (fun t => (t.state, t.rcvNxt, t.irs, t.oooQueue, t.oooSize)) =
      some (.established, 0xffffffff, 0xfffffffe, [], 0) := by
  decide +kernel

theorem receivingHost_reassembles : ∃ t u, (receivingHost.handleAll 0 pieces).heap 0 = some u ∧
    Reassembled receivingHost 0 t [1, 2, 3, 4, 5] pieces u := by
  obtain ⟨t, hp, ht⟩ := Option.map_eq_some_iff.mp receivingHost_receive
  simp only [Prod.mk.injEq] at ht
  obtain ⟨hstate, hrcv, hirs, hqueue, hsize⟩ := ht
  have hreach : receivingHost.Reachable := ⟨_, _, rfl⟩
  refine ⟨t, handleAll_reassembles hreach.wellFormed hp (by rw [hstate]; rfl)
    (by rw [hrcv, hirs]; rfl) hqueue hsize (by decide) ?_⟩
  rw [hirs]
  refine List.forall_mem_cons.mpr ⟨⟨⟨3, ?_⟩, ?_⟩, List.forall_mem_cons.mpr ⟨⟨⟨0, ?_⟩, ?_⟩,
    List.forall_mem_cons.mpr ⟨⟨⟨1, ?_⟩, ?_⟩, nofun⟩⟩⟩ <;> decide

end TCPConnectionManager
end NeuStack
