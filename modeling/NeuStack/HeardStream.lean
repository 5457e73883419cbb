import NeuStack.QuotedStream
import NeuStack.BypassedReceivers

/-! # What a connection hears of a stream

The other end of `Conn.Quoting`: what has come of a stream to a connection (`Hears`).  It waits
for the SYN, takes the bytes in their order from there on, whatever order they come in, and
has them all when it takes the FIN.  All that this needs is that the segments that come for the
connection quote the stream, and the SYNs among them have its first number (`Brings`).
-/
namespace NeuStack
variable {σ : Type}

open Reassembly

/-! ## What a segment brings -/

/-- The number of position `n` behind the SYN. -/
theorem seqAt_eq (iss : BitVec 32) (n : Nat) :
    TCPConnectionManager.seqAt iss n = iss + BitVec.ofNat 32 (n + 1) := by
  rw [TCPConnectionManager.seqAt, BitVec.add_assoc, Nat.add_comm n 1, BitVec.ofNat_add]
  rfl

namespace TCPSegment.Quotes
variable {iss : BitVec 32} {S : List Slot} {seg : TCPSegment} {n : Nat}

/-- A segment with data brings a part of the stream behind the SYN. -/
theorem piece (h : seg.Quotes iss (none :: S)) (hdata : seg.data ≠ []) :
    ∃ off, seg.seqNum = TCPConnectionManager.seqAt iss off ∧ seg.data.map some <+: S.drop off := by
  obtain ⟨s, hseq, hslots⟩ := h.slots
  have hsyn : seg.isSyn = false := by
    rw [← Bool.not_eq_true]
    exact fun hsyn => hdata (h.syn hsyn)
  have hbytes : seg.data.map some <+: (none :: S).drop s := by
    refine List.IsPrefix.trans ?_ hslots
    rw [TCPSegment.slots, hsyn, if_neg Bool.false_ne_true, List.nil_append]
    exact List.prefix_append ..
  cases s with
  | zero =>
    -- the number of the SYN has no byte
    obtain ⟨b, rest, hcons⟩ := List.exists_cons_of_ne_nil hdata
    rw [hcons, List.drop_zero, List.map_cons, List.cons_prefix_cons] at hbytes
    exact absurd hbytes.1 (Option.some_ne_none b)
  | succ off =>
    exact ⟨off, hseq.trans (seqAt_eq iss off).symm, hbytes⟩

/-- A FIN that is next in line stands where the stream has one. -/
theorem fin (h : seg.Quotes iss (none :: S)) (hS : S.length < 2 ^ 31) (hfin : seg.isFin = true)
    (hn : n ≤ S.length) (hnext : seg.finSeq = TCPConnectionManager.seqAt iss n) :
    S.take n ++ [none] <+: S := by
  obtain ⟨s, hseq, hslots⟩ := h.slots
  have hlen := hslots.length_le
  rw [TCPSegment.slots, hfin, if_pos rfl, List.length_append, List.length_append, List.length_map,
    List.length_singleton, List.length_drop, List.length_cons] at hlen
  rw [TCPSegment.finSeq, hseq, SerialNumber.add_ofNat_add, seqAt_eq, TCPSegment.dataLength]
    at hnext
  have hpos : s + seg.data.length = n + 1 :=
    SerialNumber.add_ofNat_inj _ (by omega) (by omega) hnext
  -- behind the data comes the FIN; if there is a SYN, there is no data
  have htail : [none] <+: seg.slots.drop seg.data.length := by
    rw [TCPSegment.slots, hfin, if_pos rfl]
    cases hsyn : seg.isSyn with
    | true =>
      rw [h.syn hsyn]
      exact ⟨[none], rfl⟩
    | false =>
      rw [if_neg Bool.false_ne_true, List.nil_append, ← List.length_map some, List.drop_left]
  have hthere : [none] <+: S.drop n := by
    have hdrop := hslots.drop seg.data.length
    rw [List.drop_drop, hpos, List.drop_succ_cons] at hdrop
    exact htail.trans hdrop
  obtain ⟨rest, hrest⟩ := hthere
  refine ⟨rest, ?_⟩
  rw [List.append_assoc, hrest, List.take_append_drop]

end TCPSegment.Quotes

/-- **The segment brings a part of the stream `S`** behind the SYN, whose number is `irs`. -/
structure TCPSegment.Brings (irs : BitVec 32) (S : List Slot) (seg : TCPSegment) : Prop where
  quotes : seg.Quotes irs (none :: S)
  syn : seg.isSyn = true → seg.seqNum = irs

/-! ## The receiver -/

/-- **What the TCB has taken of the stream `S`** behind the SYN, of which `out` was handed out. -/
inductive TCB.Taken (irs : BitVec 32) (S : List Slot) (room : Nat) (out : List UInt8)
    (t : TCB σ) : Prop
  | waiting (hs : t.state.receivePhase = .opening) (hooo : t.oooQueue = [] ∧ t.oooSize = 0)
      (hroom : t.options.recvBufferSize = room) (hout : out = [])
  | taking (hs : t.state.receivePhase = .taking) (a : Assembler UInt8)
      (hr : t.toTCBReceive = TCPConnectionManager.receiveOf irs a)
      (hroom : t.options.recvBufferSize = room) (hout : a.output = out)
      (hok : (a.map some).Ok S room)
  | ended (hs : t.state.receivePhase = .ended) (hend : out.map some ++ [none] <+: S)
  | closed (hs : t.state = .closed)

namespace TCB.Taken
variable {irs : BitVec 32} {S S' : List Slot} {room : Nat} {out : List UInt8} {t t' : TCB σ}

theorem extend (h : t.Taken irs S room out) (hle : S <+: S') : t.Taken irs S' room out := by
  cases h with
  | waiting hs hooo hroom hout => exact .waiting hs hooo hroom hout
  | taking hs a hr hroom hout hok => exact .taking hs a hr hroom hout (hok.extend hle)
  | ended hs hend => exact .ended hs (hend.trans hle)
  | closed hs => exact .closed hs

theorem persists (h : t.Taken irs S room out) (hpersists : t.Persists t') :
    t'.Taken irs S room out := by
  rcases hpersists with hclosed | ⟨hphase, hkept⟩
  · exact .closed hclosed
  cases h with
  | waiting hs hooo hroom hout =>
    have hs' := hphase.trans hs
    obtain ⟨hr, hopts⟩ := hkept (by rw [hs']; decide)
    refine .waiting hs' ⟨?_, ?_⟩ (hopts ▸ hroom) hout
    · exact (congrArg TCBReceive.oooQueue hr).trans hooo.1
    · exact (congrArg TCBReceive.oooSize hr).trans hooo.2
  | taking hs a hr hroom hout hok =>
    have hs' := hphase.trans hs
    obtain ⟨hr', hopts⟩ := hkept (by rw [hs']; decide)
    exact .taking hs' a (hr'.trans hr) (hopts ▸ hroom) hout hok
  | ended hs hend => exact .ended (hphase.trans hs) hend
  | closed hs =>
    rw [hs] at hphase
    exact .closed (TCPState.eq_of_phase_closed hphase)

theorem of_waits (h : t.Waits) : t.Taken irs S t.options.recvBufferSize [] := by
  rcases h with hclosed | ⟨hs, hooo⟩
  · exact .closed hclosed
  · exact .waiting hs hooo rfl rfl

/-- The reassembly of a TCB that takes data. -/
theorem assembler (h : t.Taken irs S room out) (hs : t.state.receivePhase = .taking) :
    ∃ a : Assembler UInt8, t.toTCBReceive = TCPConnectionManager.receiveOf irs a ∧
      t.options.recvBufferSize = room ∧ a.output = out ∧ (a.map some).Ok S room := by
  cases h with
  | taking _ a hr hroom hout hok => exact ⟨a, hr, hroom, hout, hok⟩
  | waiting hs' | ended hs' =>
    rw [hs] at hs'
    cases hs'
  | closed hs' =>
    rw [hs'] at hs
    cases hs

end TCB.Taken

namespace TCPConnectionManager
variable {m m' : TCPConnectionManager σ} {q : Ptr} {irs : BitVec 32} {S S' : List Slot}
  {room : Nat} {base out : List UInt8} {t : TCB σ}

/-- **The receiver at `q`** of the stream `S`, whose application was handed `out` of it. -/
structure Hears (m : TCPConnectionManager σ) (q : Ptr) (irs : BitVec 32) (S : List Slot)
    (room : Nat) (base out : List UInt8) : Prop where
  there : q < m.nextAddr
  received : m.received q = base ++ out
  cut : out.map some <+: S
  tcb : ∀ t, m.heap q = some t → t.Taken irs S room out

namespace Hears

theorem extend (h : m.Hears q irs S room base out) (hle : S <+: S') :
    m.Hears q irs S' room base out :=
  ⟨h.there, h.received, h.cut.trans hle, fun t ht => (h.tcb t ht).extend hle⟩

theorem bypassed (h : m.Hears q irs S room base out) (hbypass : Bypasses q m m') :
    m'.Hears q irs S room base out := by
  refine ⟨Nat.lt_of_lt_of_le h.there hbypass.next_le, hbypass.received.trans h.received, h.cut,
    fun t' ht' => ?_⟩
  rcases hbypass.persists t' ht' with ⟨t, ht, hpersists⟩ | ⟨hle, -⟩
  · exact (h.tcb t ht).persists hpersists
  · exact absurd h.there (Nat.not_lt.mpr hle)

variable [ICongestionControl σ] {x : Input σ} {seg : TCPSegment} {s : TCPState}

omit [ICongestionControl σ] in
/-- A connection that takes data, as the reassembly sees it. -/
theorem receiving (h : m.Hears q irs S room base out) (hwf : m.WellFormed) (hin : m.InState q s)
    (hact : s.isActive = true) (hs : s.receivePhase = .taking) :
    ∃ a, m.Receiving q (receiveOf irs a) room (base ++ a.output) ∧ (a.map some).Ok S room := by
  have hready := hin.ready hwf hact
  obtain ⟨t, ht, -, rfl⟩ := hin
  obtain ⟨a, hr, hroom, hout, hok⟩ := (h.tcb t ht).assembler hs
  exact ⟨a, ⟨hready, ⟨t, ht, hr, hroom⟩, hout ▸ h.received⟩, hok⟩

omit [ICongestionControl σ] in
theorem of_receiving {a : Assembler UInt8}
    (h : m.Receiving q (receiveOf irs a) room (base ++ a.output)) (hok : (a.map some).Ok S room)
    (hin : m.InState q s) (hs : s.receivePhase = .taking) :
    m.Hears q irs S room base a.output := by
  obtain ⟨t, ht, -, rfl⟩ := hin
  refine ⟨h.ready.wellFormed.fresh q t ht, h.received, ?_, fun u hu => ?_⟩
  · have hout : a.output.map some = S.take (a.map some).next := hok.output
    rw [hout]
    exact List.take_prefix ..
  · obtain ⟨v, hv, hr, hroom⟩ := h.tcb
    rw [hu] at ht hv
    cases ht
    cases hv
    exact .taking hs a hr hroom rfl hok

/-- **The receiver takes a segment of the stream.** -/
theorem take (h : m.Hears q irs S room base out) (hwf : m.WellFormed) (hin : m.InState q s)
    (hact : s.isActive = true) (hs : s.receivePhase = .taking) (hx : x.seg = some seg)
    (hquotes : seg.Quotes irs (none :: S)) (hS : S.length < 2 ^ 31) :
    ∃ out' s', ((m.handleAck x.ctx.toEnv q seg).handlePayload x.ctx q seg).Hears q irs S room
        base out' ∧
      ((m.handleAck x.ctx.toEnv q seg).handlePayload x.ctx q seg).WellFormed ∧
      ((m.handleAck x.ctx.toEnv q seg).handlePayload x.ctx q seg).InState q s' ∧
      s.Reaches s' := by
  have hready := hin.ready hwf hact
  have hwork := path_intake (x := x) hready hx
  obtain ⟨s', hreach, hin'⟩ := hwork.kept hwf hin (TCPState.ne_synSent_of_isActive hact)
  have hs' : s'.receivePhase = .taking := by
    rcases hreach with rfl | ⟨-, rfl⟩
    · exact hs
    · rw [TCPState.receivePhase_afterFin, hs]
  obtain ⟨a, ha, hok⟩ := h.receiving hwf hin hact hs
  have hacked : (m.handleAck x.ctx.toEnv q seg).Receiving q (receiveOf irs a) room
      (base ++ a.output) := by
    unfold TCPConnectionManager.handleAck
    split
    · rename_i hisAck
      exact ha.on fun t hact => .processAck _ _ seg hx hisAck hact
    · exact ha
  have hleft : Function.LeftInverse (fun slot : Slot => slot.getD 0) some := fun _ => rfl
  have htaken : ∃ a', ((m.handleAck x.ctx.toEnv q seg).handlePayload x.ctx q seg).Receiving q
      (receiveOf irs a') room (base ++ a'.output) ∧ (a'.map some).Ok S room := by
    unfold TCPConnectionManager.handlePayload
    split
    · rename_i hdata
      have hne : seg.data ≠ [] := List.length_pos_iff_ne_nil.mp hdata
      obtain ⟨off, hseq, hslots⟩ := hquotes.piece hne
      have hof : ((⟨off, seg.data⟩ : Piece UInt8).map some).Of S := hslots
      -- the bytes of the stream, whatever stands for its FINs
      have hbytes := hok.map fun slot : Slot => slot.getD 0
      have hcut := hof.map fun slot : Slot => slot.getD 0
      rw [Assembler.map_map_of_leftInverse some hleft] at hbytes
      rw [Piece.map_map_of_leftInverse some hleft] at hcut
      refine ⟨_, hacked.handleData x.ctx hbytes (by rwa [List.length_map]) hseq rfl hcut ?_, ?_⟩
      · have hlen := hslots.length_le
        rw [List.length_map, List.length_drop] at hlen
        rw [List.length_map]
        have hpos : 0 < seg.data.length := hdata
        show off ≤ S.length
        omega
      · rw [← Assembler.offer_map]
        exact hok.offer hof
    · exact ⟨a, hacked, hok⟩
  obtain ⟨a', ha', hok'⟩ := htaken
  exact ⟨a'.output, s', of_receiving ha' hok' hin' hs', ha'.ready.wellFormed, hin', hreach⟩

omit [ICongestionControl σ] in
/-- **The receiver takes the FIN**: everything up to it has been handed out. -/
theorem receiveFin (h : m.Hears q irs S room base out) (hin : m.InState q s)
    (hs : s.receivePhase = .taking) (hquotes : seg.Quotes irs (none :: S))
    (hS : S.length < 2 ^ 31) (hfin : m.finInOrder q seg = true) (env : Env)
    (handler next : TCPState) (hnext : next.receivePhase = .ended) :
    (m.receiveFin env q handler next).Hears q irs S room base out ∧
      (m.receiveFin env q handler next).Deaf q := by
  obtain ⟨t, ht, -, rfl⟩ := hin
  obtain ⟨a, hr, -, hout, hok⟩ := (h.tcb t ht).assembler hs
  obtain ⟨hisFin, hseq⟩ := (finInOrder_iff ht seg).mp hfin
  have hrcv : t.rcvNxt = seqAt irs a.next := congrArg TCBReceive.rcvNxt hr
  have hfin := hquotes.fin hS hisFin hok.next_le (hseq.trans hrcv)
  have hend : out.map some ++ [none] <+: S := by
    rw [← hout, show a.output.map some = S.take a.next from hok.output]
    exact hfin
  rw [receiveFin_of_heap ht]
  refine ⟨⟨h.there, ?_, h.cut, fun u hu => ?_⟩, fun u hu => ?_⟩
  · refine (received_append rfl fun ev hev => ?_).trans h.received
    simp only [List.mem_cons, List.not_mem_nil, or_false] at hev
    rcases hev with rfl | rfl | rfl <;> rfl
  · cases (store_heap_self m _).symm.trans hu
    exact .ended hnext hend
  · cases (store_heap_self m _).symm.trans hu
    exact Or.inl hnext

/-! ### The handlers -/

/-- `handle_established`, also for a connection that has been closed by now. -/
theorem handleEstablished (h : m.Hears q irs S room base out) (hwf : m.WellFormed)
    (hin : m.InState q s) (hact : s.isActive = true) (hs : s.receivePhase = .taking)
    (hx : x.seg = some seg) (hquotes : seg.Quotes irs (none :: S)) (hS : S.length < 2 ^ 31) :
    ∃ out', (m.handleEstablished x.ctx q seg).Hears q irs S room base out' := by
  obtain ⟨out', s', h', hwf', hin', hreach⟩ := h.take hwf hin hact hs hx hquotes hS
  have hs' : s'.receivePhase = .taking := by
    rcases hreach with rfl | ⟨-, rfl⟩
    · exact hs
    · rw [TCPState.receivePhase_afterFin, hs]
  refine ⟨out', ?_⟩
  unfold TCPConnectionManager.handleEstablished
  dsimp only
  split
  · rename_i hfin
    have hended := h'.receiveFin hin' hs' hquotes hS hfin x.ctx.toEnv .established
      .closeWait rfl
    exact hended.1.bypassed ((Bypasses.refl q _).notifyClose x.ctx q)
  · exact h'

theorem handleFinWait1 (h : m.Hears q irs S room base out) (hwf : m.WellFormed)
    (hin : m.InState q .finWait1) (hx : x.seg = some seg)
    (hquotes : seg.Quotes irs (none :: S)) (hS : S.length < 2 ^ 31) :
    ∃ out', (m.handleFinWait1 x.ctx q seg).Hears q irs S room base out' := by
  obtain ⟨out', s', h', hwf', hin', hreach⟩ := h.take hwf hin rfl rfl hx hquotes hS
  obtain rfl := hreach.eq rfl
  refine ⟨out', ?_⟩
  unfold TCPConnectionManager.handleFinWait1
  dsimp only
  split
  · rename_i hfin
    split
    · have hended := h'.receiveFin hin' rfl hquotes hS hfin x.ctx.toEnv .finWait1
        .timeWait rfl
      exact hended.1.bypassed ((Bypasses.refl q _).startTimeWaitTimer x.ctx.toEnv
        fun _ => hended.2)
    · exact (h'.receiveFin hin' rfl hquotes hS hfin x.ctx.toEnv .finWait1 .closing rfl).1
  · split
    · refine h'.bypassed ((Bypasses.refl q _).setState fun _ t ht => ?_)
      obtain ⟨u, hu, -, hstate⟩ := hin'
      rw [ht] at hu
      cases hu
      rw [hstate]
      rfl
    · exact h'

theorem handleFinWait2 (h : m.Hears q irs S room base out) (hwf : m.WellFormed)
    (hin : m.InState q .finWait2) (hx : x.seg = some seg)
    (hquotes : seg.Quotes irs (none :: S)) (hS : S.length < 2 ^ 31) :
    ∃ out', (m.handleFinWait2 x.ctx q seg).Hears q irs S room base out' := by
  obtain ⟨out', s', h', hwf', hin', hreach⟩ := h.take hwf hin rfl rfl hx hquotes hS
  obtain rfl := hreach.eq rfl
  refine ⟨out', ?_⟩
  unfold TCPConnectionManager.handleFinWait2
  dsimp only
  split
  · rename_i hfin
    have hended := h'.receiveFin hin' rfl hquotes hS hfin x.ctx.toEnv .finWait2 .timeWait rfl
    exact hended.1.bypassed ((Bypasses.refl q _).startTimeWaitTimer x.ctx.toEnv
      fun _ => hended.2)
  · exact h'

/-! ### The handshake -/

/-- **The handshake ends** with a segment that is processed with the TCB `t`. -/
theorem establish (hthere : q < m.nextAddr) {c : Conn σ} {a : Assembler UInt8}
    (hpath : Conn.Path x.seg ⟨q, t, m.trace⟩ c) (hr : t.toTCBReceive = receiveOf irs a)
    (hroom : t.options.recvBufferSize = room) (hreceived : m.received q = base ++ a.output)
    (hok : (a.map some).Ok S room) (ctx : Context σ) :
    (((m.store c).establish q).notifyConnect ctx q 0).Hears q irs S room base a.output := by
  have hptr : c.ptr = q := hpath.ptr
  have hest : ((m.store c).establish q).Hears q irs S room base a.output := by
    rw [establish_store hptr]
    obtain ⟨evs, htrace, hevs⟩ : Grows (fun ev => ev.dataFor q = []) m.trace
        (c.trace ++ [.moved q c.tcb.state .established]) :=
      Grows.snoc (hpath.grows.mono fun ev hev => hev.dataFor) rfl
    refine ⟨hthere, (received_append htrace hevs).trans hreceived, ?_, fun u hu => ?_⟩
    · rw [show a.output.map some = S.take (a.map some).next from hok.output]
      exact List.take_prefix ..
    · have hself := store_heap_self m ⟨q, { c.tcb with state := .established },
        c.trace ++ [.moved q c.tcb.state .established]⟩
      obtain rfl := Option.some.inj (hself.symm.trans hu)
      refine .taking rfl a (hpath.receive.trans hr) ?_ rfl hok
      rw [← hroom]
      exact congrArg (·.options.recvBufferSize) hpath.identity
  exact hest.bypassed ((Bypasses.refl q _).notifyConnect ctx q 0)

omit [ICongestionControl σ] in
/-- The receive side behind the SYN. -/
theorem receiveSyn_eq (hsyn : seg.seqNum = irs) (hooo : t.oooQueue = [] ∧ t.oooSize = 0) :
    ({ t.toTCBReceive with irs := seg.seqNum, rcvNxt := seg.seqNum + 1 } : TCBReceive) =
      receiveOf irs {} := by
  rw [receiveOf, seqAt, BitVec.add_zero, hsyn]
  show (⟨irs, irs + 1, t.oooQueue, t.oooSize⟩ : TCBReceive) = ⟨irs, irs + 1, [], 0⟩
  rw [hooo.1, hooo.2]

theorem handleSynSent (h : m.Hears q irs S room base out) (hwf : m.WellFormed)
    (hin : m.InState q .synSent) (hx : x.seg = some seg) (hbrings : seg.Brings irs S) :
    ∃ out', (m.handleSynSent x.ctx q seg).Hears q irs S room base out' := by
  obtain ⟨t, ht, -, hs⟩ := hin
  obtain ⟨hooo, hroom, rfl⟩ : (t.oooQueue = [] ∧ t.oooSize = 0) ∧
      t.options.recvBufferSize = room ∧ out = [] := by
    have hphase : t.state.receivePhase = .opening := by
      rw [hs]
      rfl
    cases h.tcb t ht with
    | waiting _ hooo hroom hout => exact ⟨hooo, hroom, hout⟩
    | taking hs' | ended hs' =>
      rw [hphase] at hs'
      cases hs'
    | closed hs' =>
      rw [hs] at hs'
      cases hs'
  have hok : (({} : Assembler UInt8).map (some : UInt8 → Slot)).Ok S room := .init S room
  refine ⟨[], ?_⟩
  by_cases hflags : (seg.isSyn && seg.isAck) = true
  · obtain ⟨hsyn, hack⟩ := Bool.and_eq_true _ _ ▸ hflags
    by_cases hnum : seg.ackNum = t.iss + 1
    · obtain ⟨hpath, -, heq⟩ := handleSynSent_synAck hwf ht hs hx hsyn hack hnum
      rw [heq]
      exact establish h.there hpath (receiveSyn_eq (hbrings.syn hsyn) hooo) hroom h.received hok x.ctx
    · rw [TCPConnectionManager.handleSynSent, if_pos hflags, test_of_heap ht,
        if_pos (bne_iff_ne.mpr hnum)]
      exact h.bypassed ((Bypasses.refl q m).sendRst seg)
  · rw [TCPConnectionManager.handleSynSent, if_neg hflags]
    split
    · rename_i hflags
      rw [Bool.and_eq_true] at hflags
      dsimp only
      -- the SYN that meets the one of this side
      rw [modify_of_heap ht, on_store rfl _ (by simp)]
      show Hears (m.store (((Conn.mk q (rewind seg t) m.trace).sendSegment x.ctx.toEnv
        (TCPFlags.syn ||| TCPFlags.ack) []).setState .synRcvd)) q irs S room base []
      rw [simultaneousOpen_eq]
      refine ⟨h.there, ?_, h.cut, fun u hu => ?_⟩
      · refine (received_append rfl fun ev hev => ?_).trans h.received
        rcases List.mem_pair.mp hev with rfl | rfl <;> rfl
      · obtain rfl := Option.some.inj ((store_heap_self m ⟨q, _, _⟩).symm.trans hu)
        exact .taking rfl {} (receiveSyn_eq (hbrings.syn hflags.1) hooo) hroom rfl hok
    · exact h

theorem handleSynRcvd (h : m.Hears q irs S room base out) (hwf : m.WellFormed)
    (hin : m.InState q .synRcvd) (hx : x.seg = some seg) (hrst : seg.isRst = false)
    (hquotes : seg.Quotes irs (none :: S)) (hS : S.length < 2 ^ 31) :
    ∃ out', (m.handleSynRcvd x.ctx q seg).Hears q irs S room base out' := by
  obtain ⟨t, ht, -, hs⟩ := hin
  have hnotRst : ¬ seg.isRst = true := by rw [hrst]; exact Bool.false_ne_true
  cases hack : seg.isAck with
  | false =>
    rw [TCPConnectionManager.handleSynRcvd, if_neg hnotRst, hack, Bool.not_false, if_pos rfl]
    exact ⟨out, h⟩
  | true =>
    by_cases hrange : seqGt seg.ackNum t.sndUna = true ∧ seqGt seg.ackNum t.sndNxt = false
    · obtain ⟨a, hr, hroom, rfl, hok⟩ := (h.tcb t ht).assembler (by rw [hs]; rfl)
      obtain ⟨hpath, huna, heq⟩ := handleSynRcvd_ack hwf ht hs hx hrst hack hrange.1 hrange.2
      obtain ⟨-, hready, s, hreach, hin'⟩ :=
        path_establish (o := m) hwf hx ht hack (.synRcvd hs hrange.1 hrange.2) hpath huna
      have hopen := establish h.there hpath hr hroom h.received hok x.ctx
      rw [heq]
      dsimp only
      split
      · have hs' : s.isActive = true ∧ s.receivePhase = .taking := by
          rcases hreach with rfl | ⟨-, rfl⟩ <;> exact ⟨rfl, rfl⟩
        exact hopen.handleEstablished hready.wellFormed hin' hs'.1 hs'.2 hx hquotes hS
      · exact ⟨_, hopen⟩
    · have houtside : (!seqGt seg.ackNum t.sndUna || seqGt seg.ackNum t.sndNxt) = true := by
        cases hgt : seqGt seg.ackNum t.sndUna <;> cases hle : seqGt seg.ackNum t.sndNxt <;>
          simp_all
      rw [TCPConnectionManager.handleSynRcvd, if_neg hnotRst, hack, Bool.not_true,
        if_neg Bool.false_ne_true, test_of_heap ht, if_pos houtside]
      exact ⟨out, h.bypassed ((Bypasses.refl q m).sendRst seg)⟩

/-! ### Entries -/

/-- **One entry at the receiver**: if it is a segment for `q`, it brings a part of the stream. -/
theorem step (h : m.Hears q irs S room base out) (hwf : m.WellFormed) (hS : S.length < 2 ^ 31)
    (hbrings : ∀ seg, x.seg = some seg → seg.isRst = false → m.findTcb seg.tuple = some q →
      seg.Brings irs S) :
    ∃ out', (m.step x).Hears q irs S room base out' := by
  by_cases hours : ∃ seg t, x.seg = some seg ∧ seg.isRst = false ∧
      m.findTcb seg.tuple = some q ∧ m.heap q = some t ∧ t.state ≠ .listen ∧
      (t.state.receivePhase = .opening ∨ t.state.receivePhase = .taking)
  · obtain ⟨seg, t, hx, hrst, hfind, ht, hlisten, hs⟩ := hours
    have hbrings := hbrings seg hx hrst hfind
    have hnot : ¬ seg.isRst = true := by
      rw [hrst]
      exact Bool.false_ne_true
    have hclosed : t.state ≠ .closed := by
      rintro heq
      rw [heq] at hs
      rcases hs with hs | hs <;> cases hs
    have hin : ∀ s, t.state = s → m.InState q s := fun s heq =>
      ⟨t, ht, hwf.mem_connections ht hlisten hclosed, heq⟩
    rw [TCPConnectionManager.step, Input.op_of_seg hx]
    dsimp only
    unfold TCPConnectionManager.onSegmentReceived
    rw [hfind, Option.orElse_eq_orElse, Option.orElse_eq_or, Option.some_or]
    dsimp only
    rw [if_neg hnot, ht]
    dsimp only
    cases hstate : t.state with
    | synSent => exact h.handleSynSent hwf (hin _ hstate) hx hbrings
    | synRcvd => exact h.handleSynRcvd hwf (hin _ hstate) hx hrst hbrings.quotes hS
    | established => exact h.handleEstablished hwf (hin _ hstate) rfl rfl hx hbrings.quotes hS
    | finWait1 => exact h.handleFinWait1 hwf (hin _ hstate) hx hbrings.quotes hS
    | finWait2 => exact h.handleFinWait2 hwf (hin _ hstate) hx hbrings.quotes hS
    | listen => exact absurd hstate hlisten
    | _ =>
      rw [hstate] at hs
      rcases hs with hs | hs <;> cases hs
  · refine ⟨out, h.bypassed (Bypasses.step hwf (fun seg hx hrst hfind t ht => ?_)
      fun _ _ _ _ _ => Nat.ne_of_lt h.there)⟩
    obtain ⟨u, hu, -, hlisten⟩ := hwf.find hfind
    rw [ht] at hu
    cases hu
    cases h.tcb t ht with
    | waiting hs => exact absurd ⟨seg, t, hx, hrst, hfind, ht, hlisten, Or.inl hs⟩ hours
    | taking hs => exact absurd ⟨seg, t, hx, hrst, hfind, ht, hlisten, Or.inr hs⟩ hours
    | ended hs => exact Or.inl hs
    | closed hs => exact Or.inr hs

/-! ### Births -/

omit [ICongestionControl σ] in
theorem received_unborn (hmade : m.Made) (hq : m.nextAddr ≤ q) : m.received q = [] := by
  refine List.flatMap_eq_nil_iff.mpr fun ev hev => Event.dataFor_of_ptr fun hp => ?_
  exact Nat.lt_irrefl q (Nat.lt_of_lt_of_le (hmade ev hev q hp) hq)

omit [ICongestionControl σ] in
/-- A connection that begins without a segment waits for one. -/
theorem of_born (hwf : m.WellFormed) (hmade : m.Made) (hq : m.nextAddr ≤ q)
    (hwf' : m'.WellFormed) (hbypass : Bypasses q m m') {u : TCB σ} (hu : m'.heap q = some u) :
    m'.Hears q irs S u.options.recvBufferSize [] [] := by
  refine ⟨hwf'.fresh q u hu, hbypass.received.trans (received_unborn hmade hq), List.nil_prefix,
    fun u' hu' => ?_⟩
  rw [hu] at hu'
  cases hu'
  rcases hbypass.persists u hu with ⟨t, ht, -⟩ | ⟨-, hwaits⟩
  · exact absurd (hwf.fresh q t ht) (Nat.not_lt.mpr hq)
  · exact .of_waits hwaits

theorem acceptTcb_receive (env : Env) (k : TCPTuple) (l : TCB σ)
    (seg : TCPSegment) : (m.acceptTcb env k l seg).toTCBReceive = receiveOf seg.seqNum {} := by
  rw [receiveOf, seqAt, BitVec.add_zero]
  rfl

omit [ICongestionControl σ] in
theorem opened (hnone : m.received m.nextAddr = []) (env : Env) (flags : UInt8)
    (ht : t.toTCBReceive = receiveOf irs {}) {u : TCB σ}
    (hu : (m.openWith env flags .synRcvd t).heap m.nextAddr = some u) : u.tTuple = t.tTuple ∧
      (m.openWith env flags .synRcvd t).Hears m.nextAddr irs S u.options.recvBufferSize [] [] := by
  have hself : (m.openWith env flags .synRcvd t).heap m.nextAddr =
      some { t.sendSyn env.now flags with state := .synRcvd } := Function.update_self ..
  rw [hself] at hu
  cases hu
  refine ⟨rfl, Nat.lt_succ_self _, (received_append rfl fun ev hev => ?_).trans hnone,
    List.nil_prefix, fun u hu => ?_⟩
  · simp only [List.mem_cons, List.not_mem_nil, or_false] at hev
    rcases hev with rfl | rfl | rfl <;> rfl
  · rw [hself] at hu
    cases hu
    exact .taking rfl {} ht rfl rfl (.init S _)

/-- **A connection begins with a SYN.** -/
theorem accepted (hwf : m.WellFormed) (hmade : m.Made) (env : Env) {lp : Ptr}
    (hlisten : m.findListeningTcb seg.dstPort = some lp) {u : TCB σ}
    (hu : (m.handleListen env lp seg).heap m.nextAddr = some u) :
    seg.isSyn = true ∧ u.tTuple = ⟨m.localIp, seg.srcAddr, seg.dstPort, seg.srcPort⟩ ∧
      (m.handleListen env lp seg).Hears m.nextAddr seg.seqNum S u.options.recvBufferSize [] [] := by
  obtain ⟨l, hlp, -, -⟩ := hwf.findListening hlisten
  have hunborn : m.heap m.nextAddr ≠ some u := fun h =>
    Nat.lt_irrefl _ (hwf.fresh m.nextAddr u h)
  by_cases hflags : (!seg.isSyn || seg.isAck) = true
  · simp only [TCPConnectionManager.handleListen, hlp, hflags, if_true] at hu
    exact absurd hu hunborn
  obtain ⟨hsyn, hnack⟩ : seg.isSyn = true ∧ seg.isAck = false := by simpa using hflags
  by_cases hlimit : maxConnections ≤ m.connections.length
  · simp only [TCPConnectionManager.handleListen, hlp, hflags, hlimit, if_true] at hu
    exact absurd hu hunborn
  have hlimit' : m.connections.length < maxConnections := Nat.not_le.mp hlimit
  refine ⟨hsyn, ?_⟩
  cases hold : m.findTcb ⟨m.localIp, seg.srcAddr, seg.dstPort, seg.srcPort⟩ with
  | none =>
    rw [handleListen_of_free hwf env hsyn hnack hlisten hlp hlimit' hold] at hu ⊢
    exact opened (received_unborn hmade (Nat.le_refl _)) env _ (acceptTcb_receive ..) hu
  | some old =>
    have hbypass := ((Bypasses.refl m.nextAddr m).endTcb old .replaced).eraseConnection
      ⟨m.localIp, seg.srcAddr, seg.dstPort, seg.srcPort⟩
    have hnext : ((m.endTcb old .replaced).eraseConnection
        ⟨m.localIp, seg.srcAddr, seg.dstPort, seg.srcPort⟩).nextAddr = m.nextAddr := by
      rw [eraseConnection_nextAddr, endTcb_nextAddr]
    have hnone := hbypass.received.trans (received_unborn hmade (Nat.le_refl _))
    rw [handleListen_of_found hwf env hsyn hnack hlisten hlp hlimit' rfl hold] at hu ⊢
    rw [← hnext] at hnone hu ⊢
    exact opened hnone env _ (acceptTcb_receive ..) hu

/-- What a segment for a listener makes. -/
theorem born (hwf : m.WellFormed) (hmade : m.Made) (hx : x.seg = some seg)
    (hrst : seg.isRst = false) (hfind : m.findTcb seg.tuple = none)
    (hlisten : m.findListeningTcb seg.dstPort ≠ none) {u : TCB σ}
    (hu : (m.step x).heap m.nextAddr = some u) :
    seg.isSyn = true ∧ u.tTuple = ⟨m.localIp, seg.srcAddr, seg.dstPort, seg.srcPort⟩ ∧
      (m.step x).Hears m.nextAddr seg.seqNum S u.options.recvBufferSize [] [] := by
  obtain ⟨lp, hlp⟩ := Option.ne_none_iff_exists'.mp hlisten
  obtain ⟨t, ht, -, hs⟩ := hwf.findListening hlp
  have hstep : m.step x = m.handleListen x.ctx.toEnv lp seg ∨ m.step x = m.handleClosed seg := by
    rw [TCPConnectionManager.step, Input.op_of_seg hx]
    dsimp only
    unfold TCPConnectionManager.onSegmentReceived
    rw [hfind, Option.orElse_eq_orElse, Option.orElse_eq_or, Option.none_or, hlp]
    dsimp only
    rw [if_neg (by rw [hrst]; exact Bool.false_ne_true), ht]
    dsimp only
    rcases hs with hs | hs <;> rw [hs]
    · exact Or.inl rfl
    · exact Or.inr rfl
  rcases hstep with hstep | hstep <;> rw [hstep] at hu ⊢
  · exact accepted hwf hmade x.ctx.toEnv hlp hu
  · have hnot : m.heap m.nextAddr = some u := by
      rw [TCPConnectionManager.handleClosed] at hu
      split at hu <;> exact hu
    exact absurd (hwf.fresh _ u hnot) (Nat.lt_irrefl _)

end Hears
end TCPConnectionManager
end NeuStack
