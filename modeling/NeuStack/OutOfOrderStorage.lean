import NeuStack.CodecRoundTrip
import NeuStack.ReceiveStream
import NeuStack.TCBInvariants

/-! # Out-of-order storage

`add_to_ooo_queue` copies a segment's data into an array of `TCP_MSS_MAX` bytes
and checks its length against the receive buffer only.  `step_storage` is one
step: the arrays hold what is copied into them if no segment that is stored has
more than `TCP_MSS_MAX` bytes; `ooo_storage` is every run.
-/
namespace NeuStack
variable {σ : Type}

open TCPConnectionManager

/-- Where `deliver_ooo_data` begins to read the entry. -/
def OutOfOrderSegment.skip (rcvNxt : BitVec 32) (e : OutOfOrderSegment) : Nat :=
  if seqLt e.seqStart rcvNxt then (rcvNxt - e.seqStart).toNat else 0

/-- **The entry was copied into its array, and is read inside of it**, wherever
`rcv_nxt` is by then. -/
structure OutOfOrderSegment.InBounds (e : OutOfOrderSegment) : Prop where
  copied : e.data.length ≤ tcpMssMax
  read : ∀ rcvNxt, seqGt e.seqStart rcvNxt = false → seqLe e.seqEnd rcvNxt = false →
    e.skip rcvNxt ≤ e.data.length

/-- An entry as it is made of a segment that fits. -/
structure OutOfOrderSegment.Fits (e : OutOfOrderSegment) : Prop where
  copied : e.data.length ≤ tcpMssMax
  seqEnd : e.seqEnd = e.seqStart + BitVec.ofNat 32 e.data.length

theorem OutOfOrderSegment.Fits.inBounds {e : OutOfOrderSegment} (h : e.Fits) : e.InBounds := by
  refine ⟨h.copied, fun rcvNxt hstart hend => ?_⟩
  have hlen := h.copied
  rw [skip]
  split
  · rw [h.seqEnd, seqLe_eq_not_seqGt, Bool.not_eq_false', seqGt_iff] at hend
    rw [← Bool.not_eq_true, seqGt_iff] at hstart
    have : tcpMssMax = 1460 := rfl
    generalize e.data.length = len at *
    bv_omega
  · exact Nat.zero_le _

namespace TCB

def OooFits (t : TCB σ) : Prop := ∀ e ∈ t.oooQueue, e.Fits

theorem OooFits.of_receive {t u : TCB σ} (h : t.OooFits)
    (heq : u.toTCBReceive = t.toTCBReceive) : u.OooFits := by
  rw [OooFits, show u.oooQueue = t.oooQueue from congrArg TCBReceive.oooQueue heq]
  exact h

/-- A segment with no more data than the array takes keeps the entries as they are. -/
theorem keeps_oooFits [ICongestionControl σ] {x : Option TCPSegment}
    (hx : ∀ seg, x = some seg → seg.dataLength ≤ tcpMssMax) :
    TCB.Keeps (OooFits (σ := σ)) x where
  new t ht := by
    cases ht <;> exact fun _ he => absurd he List.not_mem_nil
  change t u hchange h := by
    cases hchange with
    | conn _ hmove => exact h.of_receive hmove.receive
    | callbacks => exact h
    | receiveSyn => exact h
    | rcvNxt => exact h
    | popOoo =>
      rw [TCPConnectionManager.popOoo]
      split
      · exact h
      · rename_i front rest hq
        exact fun e he => h e (hq ▸ List.mem_cons_of_mem _ he)
    | stash _ seg hseg =>
      rw [addToOooQueue]
      split
      · exact h
      · intro e he
        rcases List.mem_append.mp he with he | he
        · exact h e (List.takeWhile_subset _ he)
        rcases List.mem_cons.mp he with rfl | he
        · exact ⟨hx seg hseg, rfl⟩
        · exact h e (List.dropWhile_subset _ he)
    | reopen => exact h
    | state => exact h
    | release => exact fun _ he => absurd he List.not_mem_nil

end TCB

/-- Both parsers accept a datagram that holds the segment. -/
def TCPSegment.Accepted (seg : TCPSegment) : Prop :=
  ∃ (mem : Memory) (len : Nat) (pkt : IPv4Packet) (parsed : TCPParsed),
    (IPv4Parser.parse mem len).value = some pkt ∧ (TCPParser.parse mem pkt).value = some parsed ∧
      parsed.toTCPSegment = seg

/-! ## When data is stored -/

/-- `handle_data` comes to the copy in `add_to_ooo_queue`, with the receive variables `r`
and a receive buffer of `room` bytes. -/
def StoresAt (r : TCBReceive) (room : Nat) (seg : TCPSegment) : Prop :=
  seg.dataLength ≠ 0 ∧ seqLe (seg.seqNum + BitVec.ofNat 32 seg.dataLength) r.rcvNxt = false ∧
    seqLt seg.seqNum r.rcvNxt = false ∧ seg.seqNum ≠ r.rcvNxt ∧ r.oooSize + seg.dataLength ≤ room

/-- The handler of the connection's state looks at the data of the segment. -/
def TCB.TakesData (t : TCB σ) (seg : TCPSegment) : Prop :=
  seg.isRst = false ∧ (t.state = .established ∨ t.state = .finWait1 ∨ t.state = .finWait2 ∨
    t.state = .synRcvd ∧ seg.isAck = true ∧ seqGt seg.ackNum t.sndUna = true ∧
      seqGt seg.ackNum t.sndNxt = false)

/-- What the handlers look at besides the data. -/
def TCPSegment.emptied (seg : TCPSegment) : TCPSegment :=
  { seg with seqNum := seg.finSeq, data := [] }

namespace TCPConnectionManager

/-- **If the segment is stored out of order, its data fits the array.** -/
def StoresWithin (m : TCPConnectionManager σ) (x : Input σ) : Prop :=
  ∀ seg p t, x.seg = some seg → m.findTcb seg.tuple = some p → m.heap p = some t →
    t.TakesData seg → StoresAt t.toTCBReceive t.options.recvBufferSize seg →
      seg.dataLength ≤ tcpMssMax

variable [ICongestionControl σ] {m m' o : TCPConnectionManager σ} {p : Ptr} {t : TCB σ}
  {r : TCBReceive} {room : Nat} {data : List UInt8} {P : TCB σ → Prop} {seg : TCPSegment}

omit [ICongestionControl σ] in
/-- Writing a TCB that does not change. -/
theorem modify_of_fixed {f : TCB σ → TCB σ} (hp : m.heap p = some t) (hf : f t = t) :
    m.modify p f = m := by
  rw [modify_of_heap hp, hf, store, ← hp, Function.update_eq_self]

theorem AllTCBs.deliverData (hall : m.AllTCBs P) (hP : TCB.Keeps P none) (h : Ready m p)
    (ctx : Context σ) (new : List UInt8) :
    (m.deliverData ctx p new).AllTCBs P ∧ Ready (m.deliverData ctx p new) p := by
  obtain ⟨t, hp, hact⟩ := h.heap
  have hpath := path_deliverData (x := ⟨ctx, .timer []⟩) h new none hp
  have hlog : Ready (m.log (.onReceive p t.onReceive new)) p := ⟨h.wellFormed.log _, h.inState⟩
  exact ⟨(hpath.path (o := m)).tcbs hlog.wellFormed hP (hall.of_heap rfl), hlog.work hpath⟩

/-- Data in sequence, from its delivery to its acknowledgement. -/
theorem AllTCBs.inOrder (hall : m.AllTCBs P) (hP : TCB.Keeps P none) (h : Ready m p)
    (ctx : Context σ) (new : List UInt8) (seq : BitVec 32) :
    let m' := (m.deliverData ctx p new).modify p (setRcvNxt seq)
    ((m'.deliverOooData ctx p (m'.oooLength p)).on p
      (·.acknowledgeData ctx.toEnv)).AllTCBs P := by
  intro m'
  obtain ⟨hdeliver, hready⟩ := hall.deliverData hP h ctx new
  obtain ⟨u, hu, hact⟩ := hready.heap
  have hadvance : WorkPath ⟨ctx, .timer []⟩ ⟨m.deliverData ctx p new, some (p, seq)⟩ ⟨m', none⟩ := by
    rw [show m' = _ from modify_of_heap hu (setRcvNxt seq)]
    exact .single (.advanceRcv hu hact)
  have hready' : Ready m' p := hready.work hadvance
  have hooo := path_deliverOooData (x := ⟨ctx, .timer []⟩) hready' (m'.oooLength p)
  have hack := path_on_active (x := ⟨ctx, .timer []⟩) (hready'.work hooo)
    fun u hact => .acknowledgeData ctx.toEnv _ hact
  exact (WorkPath.path (o := m) ((hadvance.trans hooo).trans hack)).tcbs hready.wellFormed hP
    hdeliver

/-- A segment that is not stored. -/
theorem AllTCBs.handleData (hall : m.AllTCBs P) (hP : TCB.Keeps P none)
    (h : m.Receiving p r room data) (ctx : Context σ) (hnot : ¬ StoresAt r room seg) :
    (m.handleData ctx p seg).AllTCBs P := by
  obtain ⟨t, hp, rfl, rfl⟩ := h.tcb
  rw [TCPConnectionManager.handleData, hp]
  cases hold : seqLt seg.seqNum t.rcvNxt with
  | true =>
    simp only [hold, if_true, Bool.true_and, decide_eq_true_eq]
    split
    · exact hall
    split
    · exact hall
    split
    · exact hall
    · exact hall.inOrder hP h.ready ctx _ _
  | false =>
    simp only [hold, Bool.false_eq_true, if_false, Bool.false_and, List.drop_zero]
    split
    · exact hall
    rename_i hdata
    split
    · exact hall
    rename_i hend
    split
    · exact hall.inOrder hP h.ready ctx _ _
    · -- There is no room for the data.
      rename_i hstart
      have hfull : t.options.recvBufferSize < t.oooSize + seg.dataLength := by
        rw [← Nat.not_le]
        exact fun hroom => hnot ⟨hdata, by simpa using hend, hold, hstart, hroom⟩
      have hsame : addToOooQueue seg.seqNum seg.data t = t := if_pos hfull
      rw [modify_of_fixed hp hsame]
      have hack := path_on_active (x := ⟨ctx, .timer []⟩) h.ready
        fun u hact => .ack ctx.toEnv _ (Or.inl hact)
      exact (hack.path (o := m)).tcbs h.ready.wellFormed hP hall

/-! ## A segment that is too long for the array -/

variable {ctx : Context σ}

omit [ICongestionControl σ] in
theorem finInOrder_emptied (m : TCPConnectionManager σ) (p : Ptr) (seg : TCPSegment) :
    m.finInOrder p seg = m.finInOrder p seg.emptied := by
  have hseq : seg.emptied.finSeq = seg.finSeq := BitVec.add_zero _
  rw [finInOrder, finInOrder, hseq]
  rfl

/-- **A segment that is not stored out of order**, in the states whose handlers take data. -/
structure Unstored (P : TCB σ → Prop) (m : TCPConnectionManager σ) (p : Ptr) (seg : TCPSegment) :
    Prop where
  keeps : TCB.Keeps P none
  keepsEmptied : TCB.Keeps P (some seg.emptied)
  tcbs : m.AllTCBs P
  receiving : ∃ r room data, m.Receiving p r room data ∧ ¬ StoresAt r room seg

namespace Unstored

/-- The part the handlers share. -/
theorem intake (h : Unstored P m p seg) (ctx : Context σ) :
    ((m.handleAck ctx.toEnv p seg).handlePayload ctx p seg).AllTCBs P := by
  obtain ⟨r, room, data, hrecv, hnot⟩ := h.receiving
  have hack : WorkPath ⟨ctx, .segment seg.emptied⟩ ⟨m, none⟩
      ⟨m.handleAck ctx.toEnv p seg.emptied, none⟩ := path_handleAck hrecv.ready ctx.toEnv rfl
  have hall : (m.handleAck ctx.toEnv p seg).AllTCBs P :=
    (hack.path (o := m)).tcbs hrecv.ready.wellFormed h.keepsEmptied h.tcbs
  have hrecv' : (m.handleAck ctx.toEnv p seg).Receiving p r room data := by
    rw [handleAck]
    split
    · rename_i hflag
      exact hrecv.on (x := ⟨ctx, .segment seg⟩) fun u hact => .processAck _ _ seg rfl hflag hact
    · exact hrecv
  rw [handlePayload]
  split
  · exact hall.handleData h.keeps hrecv' ctx hnot
  · exact hall

theorem handleEstablished (h : Unstored P m p seg) (ctx : Context σ) {s : TCPState}
    (hin : m.InState p s) (hs : TCPState.established.Reaches s) :
    (m.handleEstablished ctx p seg).AllTCBs P := by
  obtain ⟨r, room, data, hrecv, -⟩ := h.receiving
  have hwork := path_intake (x := ⟨ctx, .segment seg⟩) hrecv.ready rfl
  obtain ⟨s', hreach, hin'⟩ := hwork.kept hrecv.ready.wellFormed hin
    (TCPState.ne_synSent_of_isActive (hs.isActive rfl))
  have hwf := (hrecv.ready.work hwork).wellFormed
  rw [TCPConnectionManager.handleEstablished]
  rw [finInOrder_emptied]
  exact (path_finEstablished (o := m) (x := ⟨ctx, .segment seg.emptied⟩) hwf hin'
    (hs.trans hreach) rfl).tcbs hwf h.keepsEmptied (h.intake ctx)

theorem handleFinWait1 (h : Unstored P m p seg) (ctx : Context σ)
    (hin : m.InState p .finWait1) : (m.handleFinWait1 ctx p seg).AllTCBs P := by
  obtain ⟨r, room, data, hrecv, -⟩ := h.receiving
  obtain ⟨⟨hwf, -⟩, hin'⟩ := path_intake_inState (x := ⟨ctx, .segment seg⟩) hrecv.ready hin
    rfl rfl rfl
  rw [TCPConnectionManager.handleFinWait1]
  rw [finInOrder_emptied]
  exact (path_finFinWait1 (o := m) (x := ⟨ctx, .segment seg.emptied⟩) hwf hin' _ rfl).tcbs hwf
    h.keepsEmptied (h.intake ctx)

theorem handleFinWait2 (h : Unstored P m p seg) (ctx : Context σ)
    (hin : m.InState p .finWait2) : (m.handleFinWait2 ctx p seg).AllTCBs P := by
  obtain ⟨r, room, data, hrecv, -⟩ := h.receiving
  obtain ⟨⟨hwf, -⟩, hin'⟩ := path_intake_inState (x := ⟨ctx, .segment seg⟩) hrecv.ready hin
    rfl rfl rfl
  rw [TCPConnectionManager.handleFinWait2]
  rw [finInOrder_emptied]
  exact (path_finFinWait2 (o := m) (x := ⟨ctx, .segment seg.emptied⟩) hwf hin' rfl).tcbs hwf
    h.keepsEmptied (h.intake ctx)

end Unstored

/-- What the application does when it hears of the connection leaves the receive side alone. -/
theorem Receiving.notifyConnect (hp : m.heap p = some t)
    (hready : Ready (m.log (.onConnect p t.onConnect 0)) p) (ctx : Context σ) : ∃ data,
      (m.notifyConnect ctx p 0).Receiving p t.toTCBReceive t.options.recvBufferSize data := by
  have hlog : (m.log (.onConnect p t.onConnect 0)).Receiving p t.toTCBReceive
      t.options.recvBufferSize _ := ⟨hready, ⟨t, hp, rfl, rfl⟩, rfl⟩
  rw [TCPConnectionManager.notifyConnect, hp]
  dsimp only
  rw [invoke]
  split
  · exact ⟨_, hlog.calls _ _⟩
  · exact ⟨_, hlog⟩

/-- A segment that ends the handshake of `SYN_RCVD`, and is not stored. -/
theorem AllTCBs.handleSynRcvd (hall : m.AllTCBs P) (hP : TCB.Keeps P none)
    (hP' : TCB.Keeps P (some seg.emptied)) (hwf : m.WellFormed) (ctx : Context σ)
    (hp : m.heap p = some t) (hs : t.state = .synRcvd) (hrst : seg.isRst = false)
    (hack : seg.isAck = true) (hgt : seqGt seg.ackNum t.sndUna = true)
    (hle : seqGt seg.ackNum t.sndNxt = false)
    (hnot : ¬ StoresAt t.toTCBReceive t.options.recvBufferSize seg) :
    (m.handleSynRcvd ctx p seg).AllTCBs P := by
  obtain ⟨-, -, heq⟩ := handleSynRcvd_ack (x := ⟨ctx, .segment seg⟩) hwf hp hs rfl hrst hack hgt hle
  obtain ⟨hprocess, huna, -⟩ := handleSynRcvd_ack (x := ⟨ctx, .segment seg.emptied⟩) hwf hp hs rfl
    hrst hack hgt hle
  have hshake : Handshake seg.emptied t t := .synRcvd hs hgt hle
  have hack' : seg.emptied.isAck = true := hack
  rw [heq]
  change Conn.Path _ _ ((Conn.mk p t m.trace).processAck ctx.toEnv seg.ackNum seg.window) at hprocess
  change ((Conn.mk p t m.trace).processAck ctx.toEnv seg.ackNum seg.window).tcb.sndUna = _ at huna
  dsimp only
  generalize (Conn.mk p t m.trace).processAck ctx.toEnv seg.ackNum seg.window = c at hprocess huna ⊢
  obtain ⟨hpath, hready, s, hreach, hin⟩ := path_establish (o := m)
    (x := ⟨ctx, .segment seg.emptied⟩) hwf rfl hp hack' hshake hprocess huna
  have hestablished := hpath.tcbs hwf hP' hall
  split
  · obtain ⟨hest, hin'⟩ := establish_inState hwf hp hshake hprocess
    have hlog : Ready (((m.store c).establish p).log (.onConnect p c.tcb.onConnect 0)) p := by
      have hmove : Move m ⟨ctx, .segment seg.emptied⟩ ⟨m, none⟩
          ⟨((m.store c).establish p).log (.onConnect p t.onConnect 0), none⟩ :=
        move_establish hwf rfl hp hack' hshake hprocess huna
      exact ⟨(hwf.move hmove).congr rfl rfl rfl rfl rfl, .established, rfl, hin'⟩
    obtain ⟨data, hrecv⟩ := Receiving.notifyConnect hest hlog ctx
    have hid : c.tcb.toTCBIdentity = t.toTCBIdentity := hprocess.identity
    refine Unstored.handleEstablished ⟨hP, hP', hestablished, _, _, _, hrecv, ?_⟩ ctx hin hreach
    show ¬ StoresAt c.tcb.toTCBReceive c.tcb.options.recvBufferSize seg
    rwa [hprocess.receive, show c.tcb.options = t.options from congrArg TCBIdentity.options hid]
  · exact hestablished

/-! ## Runs -/

/-- The segment without its data. -/
def withoutData (seg : TCPSegment) : TCPSegment := { seg with data := [] }

omit [ICongestionControl σ] in
/-- A segment for a connection that is not a listener is found under its tuple. -/
theorem WellFormed.findTcb_of_find (h : m.WellFormed)
    (hfind : (m.findTcb seg.tuple <|> m.findListeningTcb seg.dstPort) = some p)
    (hp : m.heap p = some t) (hs : t.state ≠ .listen) (hs' : t.state ≠ .closed) :
    m.findTcb seg.tuple = some p := by
  cases hnew : m.findTcb seg.tuple with
  | some q =>
    rw [hnew] at hfind
    exact hfind
  | none =>
    rw [hnew] at hfind
    obtain ⟨u, hu, -, hl⟩ := h.listener _ p (h.findListeningTcb_iff.mp hfind)
    rw [hp] at hu
    cases hu
    exact absurd hl (not_or.mpr ⟨hs, hs'⟩)

/-- What the data plays no part in. -/
theorem handleSynSent_heap (ctx : Context σ) (p : Ptr) (seg : TCPSegment)
    (m : TCPConnectionManager σ) :
    (m.handleSynSent ctx p (withoutData seg)).heap = (m.handleSynSent ctx p seg).heap := by
  rw [handleSynSent, handleSynSent]
  change (if (seg.isSyn && seg.isAck) = true then _ else if (seg.isSyn && !seg.isAck) = true then _
    else m).heap = _
  split
  · change (if m.test p (fun t => seg.ackNum != t.iss + 1) = true then
      m.sendRst (withoutData seg) else _).heap = _
    split <;> rfl
  · split <;> rfl

/-- **A segment with more data than the array takes** leaves the entries as they are, unless
it is stored. -/
theorem AllTCBs.segment_long (hall : m.AllTCBs P) (hwf : m.WellFormed) (hP : TCB.Keeps P none)
    (hempty : ∀ seg : TCPSegment, seg.dataLength = 0 → TCB.Keeps P (some seg)) (ctx : Context σ)
    (hnot : ∀ p t, m.findTcb seg.tuple = some p → m.heap p = some t → t.TakesData seg →
      ¬ StoresAt t.toTCBReceive t.options.recvBufferSize seg) :
    (m.onSegmentReceived ctx seg).AllTCBs P := by
  have hbare : (m.onSegmentReceived ctx (withoutData seg)).AllTCBs P :=
    AllTCBs.step (x := ⟨ctx, .segment (withoutData seg)⟩) hall hwf (hempty _ rfl)
  rw [onSegmentReceived] at hbare ⊢
  rw [show (withoutData seg).tuple = seg.tuple from rfl,
    show (withoutData seg).dstPort = seg.dstPort from rfl,
    show (withoutData seg).isRst = seg.isRst from rfl] at hbare
  cases hfind : m.findTcb seg.tuple <|> m.findListeningTcb seg.dstPort with
  | none =>
    dsimp only
    split
    · exact hall
    · exact hall.of_heap rfl
  | some p =>
    rw [hfind] at hbare
    dsimp only at hbare ⊢
    change AllTCBs P (if seg.isRst then m.handleRst ctx p seg else _) at hbare
    split
    · rename_i hrst
      rwa [if_pos hrst] at hbare
    rename_i hrst
    rw [if_neg hrst] at hbare
    have hrst : seg.isRst = false := by simpa using hrst
    cases hp : m.heap p with
    | none => exact hall
    | some t =>
      rw [hp] at hbare
      dsimp only at hbare ⊢
      have hin (s : TCPState) (hs : t.state = s) (hact : s.isActive = true) : m.InState p s :=
        ⟨t, hp, hwf.mem_connections hp (hs ▸ TCPState.ne_listen_of_isActive hact)
          (hs ▸ TCPState.ne_closed_of_isActive hact), hs⟩
      -- The states whose handlers take data.
      have hunstored (s : TCPState) (hs : t.state = s) (hact : s.isActive = true)
          (htakes : t.TakesData seg) : Unstored P m p seg := by
        refine ⟨hP, hempty _ rfl, hall, _, _, _,
          ⟨(hin s hs hact).ready hwf hact, ⟨t, hp, rfl, rfl⟩, rfl⟩, ?_⟩
        exact hnot p t (hwf.findTcb_of_find hfind hp (hs ▸ TCPState.ne_listen_of_isActive hact)
          (hs ▸ TCPState.ne_closed_of_isActive hact)) hp htakes
      cases hs : t.state with
      | closed =>
        dsimp only
        rw [handleClosed]
        split
        · exact hall
        · exact hall.of_heap rfl
      | synSent =>
        rw [hs] at hbare
        exact hbare.of_heap (handleSynSent_heap ctx p seg m).symm
      | synRcvd =>
        dsimp only
        by_cases hack : seg.isAck = true ∧ seqGt seg.ackNum t.sndUna = true ∧
            seqGt seg.ackNum t.sndNxt = false
        · obtain ⟨hack, hgt, hle⟩ := hack
          refine hall.handleSynRcvd hP (hempty _ rfl) hwf ctx hp hs hrst hack hgt hle ?_
          exact hnot p t (hwf.findTcb_of_find hfind hp (by rw [hs]; decide) (by rw [hs]; decide)) hp
            ⟨hrst, Or.inr (Or.inr (Or.inr ⟨hs, hack, hgt, hle⟩))⟩
        · rw [TCPConnectionManager.handleSynRcvd, if_neg (by rw [hrst]; exact Bool.false_ne_true)]
          split
          · exact hall
          rename_i hflag
          have hflag : seg.isAck = true := by simpa using hflag
          have houtside : (!seqGt seg.ackNum t.sndUna || seqGt seg.ackNum t.sndNxt) = true := by
            cases hgt : seqGt seg.ackNum t.sndUna <;> cases hle : seqGt seg.ackNum t.sndNxt <;>
              simp_all
          rw [test_of_heap hp, if_pos houtside]
          exact hall.of_heap rfl
      | established =>
        exact (hunstored _ hs rfl ⟨hrst, Or.inl hs⟩).handleEstablished ctx (hin _ hs rfl)
          (Or.inl rfl)
      | finWait1 =>
        exact (hunstored _ hs rfl ⟨hrst, Or.inr (Or.inl hs)⟩).handleFinWait1 ctx (hin _ hs rfl)
      | finWait2 =>
        exact (hunstored _ hs rfl ⟨hrst, Or.inr (Or.inr (Or.inl hs))⟩).handleFinWait2 ctx
          (hin _ hs rfl)
      | _ =>
        rw [hs] at hbare
        exact hbare

/-- **One step.** -/
theorem step_storage (hwf : m.WellFormed) (hall : m.AllTCBs TCB.OooFits) {x : Input σ}
    (hx : m.StoresWithin x) : (m.step x).AllTCBs TCB.OooFits := by
  by_cases hfits : ∀ seg, x.seg = some seg → seg.dataLength ≤ tcpMssMax
  · exact hall.step hwf (TCB.keeps_oooFits hfits)
  · simp only [not_forall, Nat.not_le] at hfits
    obtain ⟨seg, hseg, hlong⟩ := hfits
    rw [step, Input.op_of_seg hseg]
    refine hall.segment_long hwf (TCB.keeps_oooFits fun _ hseg => by cases hseg) (fun seg hzero => ?_) x.ctx
      fun p t hfind hp htakes hst => ?_
    · refine TCB.keeps_oooFits fun seg' heq => ?_
      cases heq
      rw [hzero]
      exact Nat.zero_le _
    · exact Nat.not_le.mpr hlong (hx seg p t hseg hfind hp htakes hst)

/-- **Out-of-order storage is safe in every run that stores no segment longer than the array.** -/
theorem ooo_storage (localIp : UInt32) (xs : List (Input σ))
    (hxs : GuardedRun.Meets TCPConnectionManager.step StoresWithin (init localIp) xs) :
    (GuardedRun.run TCPConnectionManager.step (init localIp) xs).AllTCBs
      fun t => ∀ e ∈ t.oooQueue, e.InBounds := by
  have hrun := hxs.invariant
    (P := fun m : TCPConnectionManager σ => m.WellFormed ∧ m.AllTCBs TCB.OooFits)
    (fun m x hm hx => ⟨hm.1.step x, step_storage hm.1 hm.2 hx⟩)
    ⟨WellFormed.init localIp, .init _ localIp⟩
  exact fun p t hp e he => (hrun.2 p t hp e he).inBounds

/-- The peer's last two bytes come before its first three. -/
def shuffled : List (Input (TCPCubic Unit)) := [
  ⟨.silent 0 0, .call (.connect 0x0a000002 80 5000 none)⟩,
  ⟨.silent 1 0, .segment ⟨0x0a000002, 0x0a000001, 80, 5000, 0, 1,
    TCPFlags.syn ||| TCPFlags.ack, 65535, []⟩⟩,
  ⟨.silent 2 0, .segment ⟨0x0a000002, 0x0a000001, 80, 5000, 4, 1, TCPFlags.ack, 65535, [4, 5]⟩⟩,
  ⟨.silent 3 0, .segment ⟨0x0a000002, 0x0a000001, 80, 5000, 1, 1, TCPFlags.ack, 65535, [1, 2, 3]⟩⟩]

theorem shuffled_storage : (GuardedRun.run TCPConnectionManager.step (init 0x0a000001)
    shuffled).AllTCBs fun t => ∀ e ∈ t.oooQueue, e.InBounds := by
  have hshort : ∀ x ∈ shuffled, x.seg.all (·.dataLength ≤ tcpMssMax) := by decide
  refine ooo_storage _ _ (GuardedRun.meets_of_forall (fun x hx m seg p t hseg _ _ _ _ => ?_) _)
  have hall := hshort x hx
  rw [hseg] at hall
  exact of_decide_eq_true hall

/-! ### One byte too many -/

/-- A byte is missing before the 1461 of this segment. -/
def longSegment : TCPBuilder where
  srcPort := 80
  dstPort := 5000
  seq := 0
  ack := 1
  flags := TCPFlags.ack
  payload := List.replicate 1461 0

def fromPeerHeader : IPv4Builder where
  protocol := IPProtocol.tcp
  src := 0x0a000002
  dst := 0x0a000001

theorem longSegment_stored : ((receivingHost.step ⟨.silent 2 0, .segment
    (longSegment.parsed 0x0a000002 0x0a000001).toTCPSegment⟩).heap 0).map
      (fun t => t.oooQueue.map (·.data.length)) = some [1461] := by
  decide +kernel

theorem longSegment_accepted :
    (longSegment.parsed 0x0a000002 0x0a000001).toTCPSegment.Accepted := by
  obtain ⟨built, bytes, header, -, -, -, hparse, -, -⟩ := IPv4Builder.roundTrip longSegment
    fromPeerHeader (by decide) (by decide) (n := 1481) (m := 1501) (by decide +kernel)
    (by decide +kernel) (by decide +kernel)
  obtain ⟨hip, htcp⟩ := hparse (Memory.ofList bytes) (Memory.holds_ofList bytes)
  exact ⟨_, _, _, _, hip, htcp, rfl⟩

/-- **It is copied over the end of the array.** -/
theorem receivingHost_overflows : ¬ ∀ (m : TCPConnectionManager (TCPCubic Unit)) ctx seg,
    m.Reachable → TCPSegment.Accepted seg →
      (m.step ⟨ctx, .segment seg⟩).AllTCBs fun t => ∀ e ∈ t.oooQueue, e.InBounds := by
  intro hclaim
  obtain ⟨t, hp, hlen⟩ := Option.map_eq_some_iff.mp longSegment_stored
  have hall := hclaim receivingHost (.silent 2 0) _ ⟨_, _, rfl⟩ longSegment_accepted 0 t hp
  have hmem : 1461 ∈ t.oooQueue.map (·.data.length) := by
    rw [hlen]
    exact List.mem_singleton_self _
  obtain ⟨e, he, heq⟩ := List.mem_map.mp hmem
  have hcopied := (hall e he).copied
  rw [heq] at hcopied
  exact absurd hcopied (by decide)

end TCPConnectionManager
end NeuStack
