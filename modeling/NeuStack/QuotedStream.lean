import NeuStack.ConnHistories

/-! # What a connection sends is its stream

Whatever acknowledgements come in, old, duplicate, ahead of anything that was sent or
made up: every segment a connection puts on the wire **quotes** its stream, that is, carries
under its numbers the bytes that `send()` took at these positions, and its FIN
(`segments_quote`).  Acknowledgements decide how much of the stream is kept, and when it is
sent; of what is sent they change nothing, for a queue that loses its front under
any number still tiles what is left (`tiles_trimQueue_any`).
-/
namespace NeuStack
variable {σ : Type}

/-- **The segment carries what the stream `S` has under its numbers**; with a SYN comes no data. -/
structure TCPSegment.Quotes (iss : BitVec 32) (S : List Slot) (seg : TCPSegment) : Prop where
  slots : ∃ s, seg.seqNum = iss + BitVec.ofNat 32 s ∧ seg.slots <+: S.drop s
  syn : seg.isSyn = true → seg.data = []
  length_le : seg.dataLength ≤ tcpMssMax

theorem TCPSegment.Quotes.mono {iss : BitVec 32} {S S' : List Slot} {seg : TCPSegment}
    (h : seg.Quotes iss S) (hle : S <+: S') : seg.Quotes iss S' := by
  obtain ⟨s, hseq, hslots⟩ := h.slots
  exact ⟨⟨s, hseq, hslots.trans (hle.drop s)⟩, h.syn, h.length_le⟩

/-- Every segment of the connection at `p` quotes its stream. -/
def AllQuote (iss : BitVec 32) (p : Ptr) (tr : List Event) : Prop :=
  ∀ path seg, .sent p path seg ∈ tr → seg.Quotes iss (stream p tr)

namespace AllQuote
variable {iss : BitVec 32} {p : Ptr} {tr : List Event} {ev : Event}

theorem snoc (h : AllQuote iss p tr)
    (hev : ∀ path seg, ev = .sent p path seg → seg.Quotes iss (stream p (tr ++ [ev]))) :
    AllQuote iss p (tr ++ [ev]) := by
  intro path seg hmem
  rcases List.mem_append.mp hmem with hold | hnew
  · refine (h path seg hold).mono ?_
    rw [stream_snoc]
    exact List.prefix_append ..
  · exact hev path seg (List.mem_singleton.mp hnew).symm

theorem of_silent (h : ∀ ev ∈ tr, ev.ptr ≠ some p) : AllQuote iss p tr :=
  fun _ _ hmem => absurd rfl (h _ hmem)

end AllQuote

namespace Conn
open TCPConnectionManager

/-- **The layout of the stream**, whatever `snd_una` is: the queue tiles it from some position to
`snd_nxt`, and behind that come the bytes `pending`, which wait to be sent. -/
structure Quoting (pending : List UInt8) (c : Conn σ) : Prop where
  sent : AllQuote c.tcb.iss c.ptr c.trace
  sndNxt : c.tcb.sndNxt = c.tcb.iss + BitVec.ofNat 32 (numbered c.ptr c.trace)
  laid : ∃ a ≤ (stream c.ptr c.trace).length,
    Tiling.Tiles c.tcb.iss a (c.tcb.retransmitQueue.map RetransmitEntry.block)
      (numbered c.ptr c.trace) ∧
    (stream c.ptr c.trace).drop a =
      Tiling.items (c.tcb.retransmitQueue.map RetransmitEntry.block) ++ pending.map some
  small : ∀ e ∈ c.tcb.retransmitQueue, e.data.length ≤ tcpMssMax

variable {c c' : Conn σ} {pending data rest : List UInt8} {ev : Event} {seg : TCPSegment}

namespace Quoting

/-- Changes that spare the variables of the send side. -/
theorem requeue (h : c.Quoting pending) (hptr : c'.ptr = c.ptr) (htrace : c'.trace = c.trace)
    (hiss : c'.tcb.iss = c.tcb.iss) (hnxt : c'.tcb.sndNxt = c.tcb.sndNxt)
    (hq : c'.tcb.retransmitQueue.map RetransmitEntry.block =
      c.tcb.retransmitQueue.map RetransmitEntry.block)
    (hsmall : ∀ e ∈ c'.tcb.retransmitQueue, e.data.length ≤ tcpMssMax) : c'.Quoting pending := by
  obtain ⟨h1, h2, ⟨a, h3, h4, h5⟩, -⟩ := h
  refine ⟨?_, ?_, ⟨a, ?_, ?_, ?_⟩, hsmall⟩ <;> simp only [hptr, htrace, hiss, hnxt, hq] <;>
    assumption

theorem congr (h : c.Quoting pending) (hptr : c'.ptr = c.ptr) (htrace : c'.trace = c.trace)
    (hiss : c'.tcb.iss = c.tcb.iss) (hnxt : c'.tcb.sndNxt = c.tcb.sndNxt)
    (hq : c'.tcb.retransmitQueue = c.tcb.retransmitQueue) : c'.Quoting pending :=
  h.requeue hptr htrace hiss hnxt (by rw [hq]) (by rw [hq]; exact h.small)

theorem numbered_le (h : c.Quoting pending) :
    numbered c.ptr c.trace ≤ (stream c.ptr c.trace).length := by
  obtain ⟨a, hin, htiles, hdrop⟩ := h.laid
  have hlen := congrArg List.length hdrop
  have hn := htiles.length_items
  rw [List.length_drop, List.length_append] at hlen
  omega

/-- Behind `snd_nxt` come the bytes that wait. -/
theorem behind (h : c.Quoting pending) :
    (stream c.ptr c.trace).drop (numbered c.ptr c.trace) = pending.map some := by
  obtain ⟨a, -, htiles, hdrop⟩ := h.laid
  rw [htiles.length_items, ← List.drop_drop, hdrop, List.drop_left]

/-! ## Events -/

/-- An event that leaves the stream alone; if it is a segment, it quotes the stream. -/
theorem log (h : c.Quoting pending) (hslots : ev.slots c.ptr = []) (hnumbers : ev.numbers c.ptr = 0)
    (hev : ∀ path seg, ev = .sent c.ptr path seg →
      seg.Quotes c.tcb.iss (stream c.ptr c.trace)) : (c.log ev).Quoting pending := by
  have hstream : stream c.ptr (c.trace ++ [ev]) = stream c.ptr c.trace := by
    rw [stream_snoc, hslots, List.append_nil]
  have hnumbered : numbered c.ptr (c.trace ++ [ev]) = numbered c.ptr c.trace := by
    rw [numbered_snoc, hnumbers, Nat.add_zero]
  refine ⟨h.sent.snoc fun path seg heq => ?_, ?_, ?_, h.small⟩
  · rw [hstream]
    exact hev path seg heq
  · rw [log_tcb, log_ptr, log_trace, hnumbered]
    exact h.sndNxt
  · rw [log_tcb, log_ptr, log_trace, hnumbered, hstream]
    exact h.laid

theorem silent (h : c.Quoting pending) (hev : ev.Silent c.ptr) : (c.log ev).Quoting pending :=
  h.log hev.slots hev.numbers fun path seg heq => absurd heq (hev.notSent path seg)

theorem setState (h : c.Quoting pending) (s : TCPState) : (c.setState s).Quoting pending :=
  (h.silent (silent_moved c.ptr c.tcb.state s c.ptr)).congr rfl rfl rfl rfl rfl

/-- `send()` takes some bytes. -/
theorem accept (h : c.Quoting pending) (data : List UInt8) :
    (c.log (.accepted c.ptr data)).Quoting (pending ++ data) := by
  have hslots : (Event.accepted c.ptr data).slots c.ptr = data.map some := if_pos rfl
  have hstream : stream c.ptr (c.trace ++ [.accepted c.ptr data]) =
      stream c.ptr c.trace ++ data.map some := by
    rw [stream_snoc, hslots]
  have hnumbered : numbered c.ptr (c.trace ++ [.accepted c.ptr data]) =
      numbered c.ptr c.trace := by
    rw [numbered_snoc]
    rfl
  obtain ⟨a, hin, htiles, hdrop⟩ := h.laid
  refine ⟨h.sent.snoc fun path seg heq => Event.noConfusion heq, ?_, ⟨a, ?_, ?_, ?_⟩, h.small⟩
  · rw [log_tcb, log_ptr, log_trace, hnumbered]
    exact h.sndNxt
  · rw [log_ptr, log_trace, hstream, List.length_append]
    exact Nat.le_add_right_of_le hin
  · rw [log_tcb, log_ptr, log_trace, hnumbered]
    exact htiles
  · rw [log_tcb, log_ptr, log_trace, hstream, List.drop_append_of_le_length hin, hdrop,
      List.map_append, List.append_assoc]

/-! ## The ways to send -/

/-- A segment that uses no numbers. -/
theorem unnumbered (path : SendPath) (seg : TCPSegment) (h : c.Quoting pending)
    (hpath : path ≠ .segment ∨ (seg.data = [] ∧ seg.isFin = false))
    (hquotes : seg.Quotes c.tcb.iss (stream c.ptr c.trace)) :
    (c.log (.sent c.ptr path seg)).Quoting pending := by
  have hev : (Event.sent c.ptr path seg).slots c.ptr = [] ∧
      (Event.sent c.ptr path seg).numbers c.ptr = 0 := by
    cases path with
    | segment =>
      obtain ⟨hdata, hfin⟩ := hpath.resolve_left fun hne => hne rfl
      simp [Event.slots, Event.numbers, TCPSegment.dataLength, hdata, hfin]
    | raw => exact ⟨rfl, rfl⟩
    | probe => exact ⟨rfl, rfl⟩
  refine h.log hev.1 hev.2 fun path' seg' heq => ?_
  cases heq
  exact hquotes

/-- A segment without data, SYN or FIN. -/
theorem bare (h : c.Quoting pending) {flags : UInt8} (hflags : TCPFlags.Plain flags) :
    (c.log (.sent c.ptr .segment (c.tcb.segment flags c.tcb.sndNxt []))).Quoting pending := by
  refine h.unnumbered .segment _ (Or.inr ⟨rfl, hflags.2⟩) ⟨⟨_, h.sndNxt, ?_⟩, fun _ => rfl, Nat.zero_le _⟩
  rw [show (c.tcb.segment flags c.tcb.sndNxt []).slots = [] from TCPSegment.slots_plain hflags]
  exact List.nil_prefix

theorem bareAck (h : c.Quoting pending) (env : Env) :
    (c.sendSegment env TCPFlags.ack []).Quoting pending := by
  rw [sendSegment_ack]
  exact (h.bare TCPFlags.plain_ack).congr rfl rfl rfl (BitVec.add_zero _) rfl

/-- The head of the queue again, or a part of it. -/
theorem resend (h : c.Quoting pending) {e : RetransmitEntry} {q : List RetransmitEntry}
    (hq : c.tcb.retransmitQueue = e :: q) (flags : UInt8) (data : List UInt8)
    (hslots : (c.tcb.segment flags e.seqStart data).slots <+: e.slots)
    (hsyn : TCPFlags.has flags TCPFlags.syn = true → data = []) :
    (c.rawSend flags e.seqStart data).Quoting pending := by
  unfold rawSend
  split
  · exact h
  rename_i hlong
  obtain ⟨a, -, htiles, hdrop⟩ := h.laid
  rw [hq, List.map_cons] at htiles hdrop
  refine h.unnumbered _ _ (Or.inl (by decide)) ⟨⟨a, htiles.1, ?_⟩, hsyn, Nat.not_lt.mp hlong⟩
  rw [hdrop, Tiling.items_cons, List.append_assoc]
  exact hslots.trans (List.prefix_append ..)

/-- The first byte that waits. -/
theorem probe (h : c.Quoting c.tcb.sendBuffer.contents) :
    c.sendZeroWindowProbe.Quoting c.tcb.sendBuffer.contents := by
  unfold sendZeroWindowProbe
  split
  · exact h
  have hplain := TCPFlags.plain_ack
  refine h.unnumbered _ _ (Or.inl (by decide)) ⟨⟨_, h.sndNxt, ?_⟩, fun hsyn => ?_, ?_⟩
  · rw [h.behind, TCPSegment.slots_plain (by exact hplain)]
    show (c.tcb.sendBuffer.peek 1).map some <+: _
    rw [StreamBuffer.peek_eq, List.map_take]
    exact List.take_prefix ..
  · rw [show TCPSegment.isSyn _ = TCPFlags.has TCPFlags.ack TCPFlags.syn from rfl, hplain.1] at hsyn
    cases hsyn
  · show (c.tcb.sendBuffer.peek 1).length ≤ tcpMssMax
    rw [StreamBuffer.peek_eq]
    exact Nat.le_trans (List.length_take_le ..) (by decide)

/-- A segment that goes into the queue: its numbers are new, and the stream has what it
carries under them. -/
theorem enqueue (h : c.Quoting pending) (e : RetransmitEntry) (seg : TCPSegment)
    (hnumbers : (Event.sent c.ptr .segment seg).numbers c.ptr = e.slots.length)
    (hslots : seg.slots = e.slots) (hseq : seg.seqNum = c.tcb.sndNxt)
    (hsyn : seg.isSyn = true → seg.data = []) (hlen : seg.dataLength ≤ tcpMssMax)
    (hsmall : e.data.length ≤ tcpMssMax) (hstart : e.seqStart = c.tcb.sndNxt)
    (hstop : e.seqEnd = c.tcb.sndNxt + BitVec.ofNat 32 e.slots.length)
    (hahead : pending.map some ++ (Event.sent c.ptr .segment seg).slots c.ptr =
      e.slots ++ rest.map some)
    (hptr : c'.ptr = c.ptr) (htrace : c'.trace = c.trace ++ [.sent c.ptr .segment seg])
    (hiss : c'.tcb.iss = c.tcb.iss) (hnxt : c'.tcb.sndNxt = e.seqEnd)
    (hq : c'.tcb.retransmitQueue = c.tcb.retransmitQueue ++ [e]) : c'.Quoting rest := by
  obtain ⟨a, hin, htiles, hdrop⟩ := h.laid
  have hnumbered : numbered c'.ptr c'.trace = numbered c.ptr c.trace + e.slots.length := by
    rw [hptr, htrace, numbered_snoc, hnumbers]
  have hstream : stream c'.ptr c'.trace =
      stream c.ptr c.trace ++ (Event.sent c.ptr .segment seg).slots c.ptr := by
    rw [hptr, htrace, stream_snoc]
  have hbehind : (stream c'.ptr c'.trace).drop (numbered c.ptr c.trace) =
      e.slots ++ rest.map some := by
    rw [hstream, List.drop_append_of_le_length h.numbered_le, h.behind, hahead]
  have hend : e.seqEnd = c.tcb.iss + BitVec.ofNat 32 (numbered c.ptr c.trace + e.slots.length) := by
    rw [hstop, h.sndNxt, SerialNumber.add_ofNat_add]
  refine ⟨?_, ?_, ⟨a, ?_, ?_, ?_⟩, ?_⟩
  · rw [hptr, htrace] at hbehind
    rw [hiss, hptr, htrace]
    refine h.sent.snoc fun path seg' heq => ?_
    cases heq
    refine ⟨⟨numbered c.ptr c.trace, by rw [hseq, h.sndNxt], ?_⟩, hsyn, hlen⟩
    rw [hbehind, hslots]
    exact List.prefix_append ..
  · rw [hnxt, hiss, hnumbered, hend]
  · rw [hstream, List.length_append]
    exact Nat.le_add_right_of_le hin
  · rw [hiss, hq, hnumbered, List.map_append]
    exact htiles.snoc (hstart.trans h.sndNxt) hend
  · rw [hq, List.map_append, List.map_singleton, Tiling.items_snoc, hstream,
      List.drop_append_of_le_length hin, hdrop, List.append_assoc, List.append_assoc, hahead]
    rfl
  · rw [hq]
    intro e' he'
    rcases List.mem_append.mp he' with hold | hnew
    · exact h.small e' hold
    · rw [List.mem_singleton.mp hnew]
      exact hsmall

/-- Bytes that wait, for the first time on the wire. -/
theorem transmit (h : c.Quoting (data ++ rest)) (env : Env) (hle : data.length ≤ tcpMssMax) :
    (c.sendSegment env (TCPFlags.ack ||| TCPFlags.psh) data).Quoting rest := by
  rcases Nat.eq_zero_or_pos data.length with hzero | hpos
  · rw [List.length_eq_zero_iff] at hzero
    subst hzero
    rw [sendSegment_push_nil]
    have hsent := Quoting.bare h TCPFlags.plain_push
    exact hsent.congr rfl rfl rfl (BitVec.add_zero _) rfl
  · have hne : data ≠ [] := List.length_pos_iff_ne_nil.mp hpos
    rw [sendSegment_data env c hpos hle]
    have hflags : (c.tcb.segment (TCPFlags.ack ||| TCPFlags.psh) c.tcb.sndNxt data).isSyn = false ∧
        (c.tcb.segment (TCPFlags.ack ||| TCPFlags.psh) c.tcb.sndNxt data).isFin = false :=
      TCPFlags.plain_push
    let e : RetransmitEntry := ⟨c.tcb.sndNxt, c.tcb.sndNxt + BitVec.ofNat 32 data.length, data,
      env.now, env.now + c.tcb.rtoUs.toNat, 0⟩
    have hslots : e.slots = data.map some := if_neg hne
    have hlen : e.slots.length = data.length := by rw [hslots, List.length_map]
    refine h.enqueue e (c.tcb.segment _ c.tcb.sndNxt data) ?_ ?_ rfl ?_ hle hle rfl ?_ ?_ rfl rfl
      rfl ?_ ?_
    · rw [hlen, Event.numbers, if_pos rfl, hflags.2]
      rfl
    · rw [hslots]
      exact TCPSegment.slots_plain TCPFlags.plain_push
    · rw [hflags.1]
      exact fun hsyn => Bool.noConfusion hsyn
    · rw [hlen]
    · rw [Event.slots, hflags.2, if_neg (by simp), hslots, List.append_nil, List.map_append]
    · show c.tcb.sndNxt + BitVec.ofNat 32 (seqSpace _ data.length) = _
      rw [seqSpace_push]
    · show c.tcb.retransmitQueue ++ [⟨c.tcb.sndNxt, c.tcb.sndNxt + BitVec.ofNat 32 (seqSpace _ _),
        data, env.now, env.now + c.tcb.rtoUs.toNat, 0⟩] = _
      rw [seqSpace_push]

/-- A FIN, once nothing waits. -/
theorem sendFin (h : c.Quoting []) (env : Env) :
    (c.sendSegment env (TCPFlags.fin ||| TCPFlags.ack) []).Quoting [] := by
  rw [sendSegment_fin]
  have hflags : (c.tcb.segment (TCPFlags.fin ||| TCPFlags.ack) c.tcb.sndNxt []).isFin = true ∧
      (c.tcb.segment (TCPFlags.fin ||| TCPFlags.ack) c.tcb.sndNxt []).isSyn = false := by
    constructor
    · show TCPFlags.has (TCPFlags.fin ||| TCPFlags.ack) TCPFlags.fin = true
      decide
    · show TCPFlags.has (TCPFlags.fin ||| TCPFlags.ack) TCPFlags.syn = false
      decide
  let e : RetransmitEntry := ⟨c.tcb.sndNxt, c.tcb.sndNxt + 1, [], env.now,
    env.now + c.tcb.rtoUs.toNat, 0⟩
  refine h.enqueue e (c.tcb.segment _ c.tcb.sndNxt []) ?_ ?_ rfl (fun _ => rfl) (Nat.zero_le _)
    (Nat.zero_le _) rfl rfl ?_ rfl rfl rfl rfl rfl
  · rw [Event.numbers, if_pos rfl, hflags.1]
    rfl
  · rw [TCPSegment.slots, hflags.1, hflags.2]
    rfl
  · rw [Event.slots, if_pos ⟨rfl, hflags.1⟩]
    rfl

/-- The bytes that wait come to rest in the buffer. -/
theorem buffer {data : List UInt8} (h : c.Quoting (c.tcb.sendBuffer.contents ++ data))
    (hfit : data.length ≤ c.tcb.sendBuffer.available) :
    (c.buffer data).Quoting (c.buffer data).tcb.sendBuffer.contents := by
  rw [buffer_tcb, StreamBuffer.contents_write, List.take_of_length_le hfit]
  exact h.congr rfl rfl rfl rfl rfl

end Quoting

/-! ## What is acknowledged -/

/-- **The trimmed queue** tiles what is left, whatever the number is. -/
theorem tiles_trimQueue_any {iss : BitVec 32} {a n : Nat} {q : List RetransmitEntry} (now : Nat)
    (established : Bool) (r : TCBRtt) (x : BitVec 32)
    (h : Tiling.Tiles iss a (q.map RetransmitEntry.block) n)
    (hsmall : ∀ e ∈ q, e.data.length ≤ tcpMssMax) :
    let q' := (trimQueue now established x r q).2
    ∃ k ≤ (Tiling.items (q.map RetransmitEntry.block)).length,
      Tiling.Tiles iss (a + k) (q'.map RetransmitEntry.block) n ∧
      Tiling.items (q'.map RetransmitEntry.block) =
        (Tiling.items (q.map RetransmitEntry.block)).drop k ∧
      ∀ e ∈ q', e.data.length ≤ tcpMssMax := by
  induction q generalizing a r with
  | nil => exact ⟨0, Nat.zero_le _, h, rfl, hsmall⟩
  | cons e q ih =>
    obtain ⟨hstart, hstop, htail⟩ := h
    have hstart : e.seqStart = iss + BitVec.ofNat 32 a := hstart
    have hstop : e.seqEnd = iss + BitVec.ofNat 32 (a + e.slots.length) := hstop
    have htail : Tiling.Tiles iss (a + e.slots.length) (q.map RetransmitEntry.block) n := htail
    have hrest : ∀ e' ∈ q, e'.data.length ≤ tcpMssMax :=
      fun e' he' => hsmall e' (List.mem_cons_of_mem _ he')
    have hitems : (Tiling.items ((e :: q).map RetransmitEntry.block)) =
        e.slots ++ Tiling.items (q.map RetransmitEntry.block) := Tiling.items_cons
    unfold trimQueue
    dsimp only
    rw [hitems, List.length_append]
    split
    · -- the whole entry goes
      obtain ⟨k, hk, htiles, hdrop, hsmall'⟩ := ih _ htail hrest
      refine ⟨e.slots.length + k, by omega, Nat.add_assoc a _ k ▸ htiles, ?_, hsmall'⟩
      rw [hdrop, ← List.drop_drop, List.drop_left]
    rename_i hend
    split
    · -- the number is inside the entry
      rename_i hbegin
      rw [Bool.not_eq_true] at hend
      have hslots := length_slots e
      have hlen := hsmall e (List.mem_cons_self ..)
      have hmax : tcpMssMax = 1460 := rfl
      obtain ⟨k, hx, hpos, hlt⟩ : ∃ k, x = iss + BitVec.ofNat 32 (a + k) ∧ 0 < k ∧
          k < e.slots.length := by
        refine ⟨(x - e.seqStart).toNat, ?_, ?_⟩
        · rw [← SerialNumber.add_ofNat_add, ← hstart]
          exact SerialNumber.eq_add_sub e.seqStart x
        · rw [← Bool.not_eq_true, seqLe_iff, hstop, ← SerialNumber.add_ofNat_add, ← hstart] at hend
          rw [seqLt_iff] at hbegin
          have hshort : e.slots.length ≤ 1460 := by split at hslots <;> omega
          generalize e.slots.length = l at hshort hend ⊢
          constructor <;> bv_omega
      obtain ⟨hblock, hsmall'⟩ := block_truncate (k := k) hstart hlen hpos hlt
      rw [← hx] at hblock hsmall'
      have hwhole : Tiling.Tiles iss a (e.block :: q.map RetransmitEntry.block) n :=
        ⟨hstart, hstop, htail⟩
      have htiles := hwhole.shorten (show k ≤ e.slots.length by omega)
      refine ⟨k, by omega, ?_, ?_, ?_⟩
      · rw [List.map_cons, hblock, hx]
        exact htiles
      · rw [List.map_cons, hblock, Tiling.items_cons]
        exact (List.drop_append_of_le_length (show k ≤ e.slots.length by omega)).symm
      · exact List.forall_mem_cons.mpr ⟨hsmall', hrest⟩
    · exact ⟨0, Nat.zero_le _, ⟨hstart, hstop, htail⟩, hitems, hsmall⟩

variable [ICongestionControl σ] {x : Option TCPSegment}

namespace Quoting

/-- **Any acknowledgement** takes the front off the queue. -/
theorem advance (h : c.Quoting pending) (env : Env) (ackNum : BitVec 32) :
    (c.advance env ackNum).Quoting pending := by
  obtain ⟨a, hin, htiles, hdrop⟩ := h.laid
  obtain ⟨k, hk, htiles', hitems, hsmall⟩ := tiles_trimQueue_any env.now
    (c.tcb.state == .established) c.tcb.toTCBRtt ackNum htiles h.small
  have hn := htiles.length_items
  have hle := h.numbered_le
  refine ⟨h.sent, h.sndNxt, ⟨a + k, ?_, htiles', ?_⟩, hsmall⟩
  · show a + k ≤ (stream c.ptr c.trace).length
    omega
  · show (stream c.ptr c.trace).drop (a + k) = Tiling.items _ ++ _
    rw [← List.drop_drop, hdrop, List.drop_append_of_le_length hk]
    exact congrArg (· ++ _) hitems.symm

omit [ICongestionControl σ] in
/-- The timer data of the head of the queue. -/
theorem touchHead (h : c.Quoting pending) {e : RetransmitEntry} {q : List RetransmitEntry}
    (hq : c.tcb.retransmitQueue = e :: q) (count timeout : Nat) :
    Quoting pending { c with tcb := { c.tcb with
      retransmitQueue := { e with retransmitCount := count, timeout := timeout } :: q } } := by
  have hsmall := h.small
  rw [hq, List.forall_mem_cons] at hsmall
  refine h.requeue rfl rfl rfl rfl ?_ (List.forall_mem_cons.mpr hsmall)
  rw [hq]
  rfl

omit [ICongestionControl σ] in
/-- An entry with data again, as much of it as the MSS allows. -/
theorem resendData (h : c.Quoting pending) {e : RetransmitEntry} {q : List RetransmitEntry}
    (hq : c.tcb.retransmitQueue = e :: q) (hdata : e.data ≠ []) {flags : UInt8}
    (hflags : TCPFlags.Plain flags) (n : Nat) :
    (c.rawSend flags e.seqStart (e.data.take n)).Quoting pending := by
  refine h.resend hq flags _ ?_ fun hsyn => ?_
  · rw [TCPSegment.slots_plain (by exact hflags), RetransmitEntry.slots, if_neg hdata]
    show (e.data.take n).map some <+: e.data.map some
    rw [List.map_take]
    exact List.take_prefix ..
  · rw [hflags.1] at hsyn
    cases hsyn

omit [ICongestionControl σ] in
/-- An entry without data: a SYN or a FIN again. -/
theorem resendBare (h : c.Quoting pending) {e : RetransmitEntry} {q : List RetransmitEntry}
    (hq : c.tcb.retransmitQueue = e :: q) (hdata : e.data = [])
    (hflags : retransmitFlags c.tcb.state ≠ 0) :
    (c.rawSend (retransmitFlags c.tcb.state) e.seqStart []).Quoting pending := by
  refine h.resend hq _ _ ?_ fun _ => rfl
  rw [slots_retransmitFlags hflags, RetransmitEntry.slots, if_pos hdata]

/-- One round of the drain. -/
theorem drainStep (h : c.Quoting c.tcb.sendBuffer.contents) (hmss : c.tcb.MssFits) (env : Env) :
    (c.drainStep env).Quoting (c.drainStep env).tcb.sendBuffer.contents := by
  obtain ⟨data, hlen, hdata, hcontents⟩ := contents_chunk c
  have hle : data.length ≤ tcpMssMax := by
    rw [hlen]
    exact Nat.le_trans (Nat.min_le_right ..) hmss.2
  rw [hcontents] at h
  have hsent := h.transmit env hle
  unfold Conn.drainStep
  dsimp only
  rw [hdata]
  have hrest : ((c.sendSegment env (TCPFlags.ack ||| TCPFlags.psh) data).tcb.sendBuffer.consume
      (chunk c.tcb)).2.contents = c.tcb.sendBuffer.contents.drop (chunk c.tcb) := by
    rw [sendSegment_sendBuffer, StreamBuffer.contents_consume]
  rw [hrest]
  exact hsent.congr rfl rfl rfl rfl rfl

omit [ICongestionControl σ] in
/-- `send()`, with the first `n` bytes on the wire. -/
theorem transmitData (h : c.Quoting c.tcb.sendBuffer.contents)
    (hbuf : c.tcb.sendBuffer.empty = true) (env : Env) {n : Nat} (hn : n ≤ tcpMssMax)
    (hfit : data.length ≤ c.tcb.sendBuffer.available) :
    let c' := ((c.log (.accepted c.ptr data)).sendSegment env (TCPFlags.ack ||| TCPFlags.psh)
      (data.take n)).buffer (data.drop n)
    c'.Quoting c'.tcb.sendBuffer.contents := by
  have hempty := (StreamBuffer.empty_iff _).mp hbuf
  have haccept := h.accept data
  rw [hempty, List.nil_append] at haccept
  have hsplit : (c.log (.accepted c.ptr data)).Quoting (data.take n ++ data.drop n) := by
    rwa [List.take_append_drop]
  have hsent := hsplit.transmit env (Nat.le_trans (List.length_take_le ..) hn)
  dsimp only
  refine Quoting.buffer ?_ ?_
  · rw [sendSegment_sendBuffer, log_tcb, hempty, List.nil_append]
    exact hsent
  · rw [sendSegment_sendBuffer, log_tcb, List.length_drop]
    exact Nat.le_trans (Nat.sub_le ..) hfit

omit [ICongestionControl σ] in
/-- The FIN that ends the stream, and the change of state that goes with it. -/
theorem finish (h : c.Quoting c.tcb.sendBuffer.contents) (hbuf : c.tcb.sendBuffer.empty = true)
    (env : Env) (s : TCPState) :
    let c' := (c.sendSegment env (TCPFlags.fin ||| TCPFlags.ack) []).setState s
    c'.Quoting c'.tcb.sendBuffer.contents := by
  have hempty := (StreamBuffer.empty_iff _).mp hbuf
  rw [hempty] at h
  have hfin := (h.sendFin env).setState s
  show Quoting (c.sendSegment env (TCPFlags.fin ||| TCPFlags.ack) []).tcb.sendBuffer.contents _
  rw [sendSegment_sendBuffer, hempty]
  exact hfin

end Quoting

/-- **A move keeps the layout.** -/
theorem Move.quoting (hmove : Move x c c') (hmss : c.tcb.MssFits)
    (h : c.Quoting c.tcb.sendBuffer.contents) : c'.Quoting c'.tcb.sendBuffer.contents := by
  cases hmove with
  | idle | window | loss | reno | delayAck | rcvWnd | setPending | dropPending =>
    exact h.congr rfl rfl rfl rfl rfl
  | sampled => exact h.silent ⟨rfl, rfl, fun _ _ => Event.noConfusion⟩
  | advance env c seg => exact h.advance env seg.ackNum
  | touchHead c e rest count timeout hq => exact h.touchHead hq count timeout
  | resend c e rest flags hq hdata hflags =>
    rw [rawSend_tcb]
    refine h.resendData hq hdata ?_ _
    rcases hflags with rfl | rfl
    · exact TCPFlags.plain_ack
    · exact TCPFlags.plain_push
  | resendBare c e rest hq hdata hflags =>
    rw [rawSend_tcb]
    exact h.resendBare hq hdata hflags
  | probe =>
    rw [sendZeroWindowProbe_tcb]
    exact h.probe
  | ack env c =>
    rw [sendSegment_sendBuffer]
    exact h.bareAck env
  | delayedAck env c =>
    show Quoting (c.sendSegment env TCPFlags.ack []).tcb.sendBuffer.contents _
    rw [sendSegment_sendBuffer]
    exact (h.bareAck env).congr rfl rfl rfl rfl rfl
  | drain env c => exact h.drainStep hmss env
  | bufferData c data _ _ hfit => exact (h.accept data).buffer hfit
  | transmitData env c data n _ _ hfit hbuf _ hn =>
    refine h.transmitData hbuf env ?_ hfit
    rw [hn]
    exact Nat.le_trans (Nat.min_le_right ..) hmss.2
  | deferredFin env c _ hbuf =>
    exact Quoting.finish (c := { c with tcb := { c.tcb with closePending := false } })
      (h.congr rfl rfl rfl rfl rfl) hbuf env _
  | finish env c s _ _ hbuf =>
    exact Quoting.finish (c := c.log (.finishing c.ptr s c.tcb.state))
      (h.silent ⟨rfl, rfl, fun _ _ => Event.noConfusion⟩) hbuf env _

omit [ICongestionControl σ] in
/-- The SYN of a simultaneous open, under the number it had. -/
theorem Quoting.reopen (h : c.Quoting c.tcb.sendBuffer.contents) (hopen : c.tcb.Opening)
    (huna : c.tcb.sndUna = c.tcb.iss) (seg : TCPSegment) (now : Nat) :
    Quoting c.tcb.sendBuffer.contents ⟨c.ptr,
      (rewind seg c.tcb).sendSyn now (TCPFlags.syn ||| TCPFlags.ack), c.trace ++
        [.sent c.ptr .segment ((rewind seg c.tcb).segment (TCPFlags.syn ||| TCPFlags.ack)
          c.tcb.sndUna [])]⟩ := by
  obtain ⟨hnxt, -, -, -, ⟨-, e, hq, hstart, hend, hdata⟩ | ⟨huna', -⟩⟩ := hopen
  swap
  · rw [huna] at huna'
    exact absurd huna' (by bv_omega)
  have hspace : seqSpace (TCPFlags.syn ||| TCPFlags.ack) 0 = 1 := by decide
  have hslots : ((rewind seg c.tcb).segment (TCPFlags.syn ||| TCPFlags.ack) c.tcb.sndUna
      []).slots = [none] := by
    rw [TCPSegment.slots,
      show TCPSegment.isSyn _ = TCPFlags.has (TCPFlags.syn ||| TCPFlags.ack) TCPFlags.syn from rfl,
      show TCPSegment.isFin _ = TCPFlags.has (TCPFlags.syn ||| TCPFlags.ack) TCPFlags.fin from rfl]
    rfl
  obtain ⟨a, -, htiles, hdrop⟩ := h.laid
  rw [hq, List.map_cons, List.map_nil] at htiles hdrop
  have hfirst : c.tcb.iss = c.tcb.iss + BitVec.ofNat 32 a := hstart.symm.trans htiles.1
  have hquotes : TCPSegment.Quotes c.tcb.iss (stream c.ptr c.trace)
      ((rewind seg c.tcb).segment (TCPFlags.syn ||| TCPFlags.ack) c.tcb.sndUna []) := by
    refine ⟨⟨a, huna.trans hfirst, ?_⟩, fun _ => rfl, Nat.zero_le _⟩
    rw [hslots, hdrop, Tiling.items_cons]
    show [none] <+: (if e.data = [] then [none] else e.data.map some) ++ _ ++ _
    rw [if_pos hdata]
    exact ⟨_, rfl⟩
  have hplain : TCPFlags.has (TCPFlags.syn ||| TCPFlags.ack) TCPFlags.fin = false := by decide
  have hsent := h.unnumbered .segment _ (Or.inr ⟨rfl, by exact hplain⟩) hquotes
  refine hsent.requeue rfl rfl rfl ?_ ?_ ?_
  · show c.tcb.iss + BitVec.ofNat 32 (seqSpace _ 0) = c.tcb.sndNxt
    rw [hspace, hnxt]
    rfl
  · show [RetransmitEntry.block ⟨c.tcb.sndUna, c.tcb.iss + BitVec.ofNat 32 (seqSpace _ 0), [], _, _,
      0⟩] = c.tcb.retransmitQueue.map _
    rw [hq, hspace, huna]
    show [RetransmitEntry.block _] = [RetransmitEntry.block e]
    rw [RetransmitEntry.block, RetransmitEntry.block, RetransmitEntry.slots,
      RetransmitEntry.slots, hstart, hend, hdata]
    rfl
  · exact List.forall_mem_cons.mpr ⟨Nat.zero_le _, fun _ he => absurd he List.not_mem_nil⟩

omit [ICongestionControl σ] in
/-- With the buffer empty, everything has its number. -/
theorem Quoting.release (h : c.Quoting c.tcb.sendBuffer.contents)
    (hbuf : c.tcb.sendBuffer.empty = true) :
    Quoting (releaseBuffers c.tcb).sendBuffer.contents
      { c with tcb := releaseBuffers c.tcb } := by
  have hbehind := h.behind
  rw [(StreamBuffer.empty_iff _).mp hbuf] at hbehind
  refine ⟨h.sent, h.sndNxt, ⟨numbered c.ptr c.trace, h.numbered_le, ?_, hbehind⟩, ?_⟩
  · show numbered c.ptr c.trace = numbered c.ptr c.trace
    rfl
  exact fun _ he => absurd he List.not_mem_nil

/-- A turn keeps the initial number and the options. -/
theorem Turn.kept (h : Turn c c') :
    c'.tcb.iss = c.tcb.iss ∧ c'.tcb.options = c.tcb.options := by
  cases h with
  | move h =>
    exact ⟨congrArg TCBIdentity.iss h.identity, congrArg TCBIdentity.options h.identity⟩
  | _ => exact ⟨rfl, rfl⟩

theorem Turns.kept (h : Turns c c') :
    c'.tcb.iss = c.tcb.iss ∧ c'.tcb.options = c.tcb.options := by
  induction h with
  | refl => exact ⟨rfl, rfl⟩
  | tail _ hturn ih => exact ⟨hturn.kept.1.trans ih.1, hturn.kept.2.trans ih.2⟩

/-- **A turn keeps the layout.** -/
theorem Turn.quoting (hturn : Turn c c') (hmss : c.tcb.MssFits)
    (h : c.Quoting c.tcb.sendBuffer.contents) : c'.Quoting c'.tcb.sendBuffer.contents := by
  cases hturn with
  | move hmove => exact hmove.quoting hmss h
  | silent _ hev => exact h.silent hev
  | state => exact h.congr rfl rfl rfl rfl rfl
  | receive => exact h.congr rfl rfl rfl rfl rfl
  | reopen _ seg now _ hopen huna => exact h.reopen hopen huna seg now
  | release _ hbuf => exact h.release hbuf

theorem Turns.quoting (hturns : Turns c c') (hmss : c.tcb.MssFits)
    (h : c.Quoting c.tcb.sendBuffer.contents) : c'.Quoting c'.tcb.sendBuffer.contents := by
  induction hturns with
  | refl => exact h
  | tail hpath hturn ih =>
    refine hturn.quoting ?_ ih
    unfold TCB.MssFits
    rw [(Turns.kept hpath).2]
    exact hmss

/-! ## Births -/

omit [ICongestionControl σ] in
/-- A TCB that has used no number yet. -/
theorem Quoting.unsent {p : Ptr} {tr : List Event} {t : TCB σ} (h : Unsent t)
    (hsilent : ∀ ev ∈ tr, ev.ptr ≠ some p) : Quoting [] ⟨p, t, tr⟩ := by
  obtain ⟨hstream, hnumbered, -⟩ := silent_trace hsilent
  refine ⟨.of_silent hsilent, ?_, ⟨0, Nat.zero_le _, ?_, ?_⟩, ?_⟩
  · show t.sndNxt = t.iss + BitVec.ofNat 32 (numbered p tr)
    rw [hnumbered, h.sndNxt]
    exact (BitVec.add_zero _).symm
  · show Tiling.Tiles t.iss 0 (t.retransmitQueue.map _) (numbered p tr)
    rw [h.queue, hnumbered]
    rfl
  · show (stream p tr).drop 0 = Tiling.items (t.retransmitQueue.map _) ++ _
    rw [h.queue, hstream]
    rfl
  · show ∀ e ∈ t.retransmitQueue, _
    rw [h.queue]
    exact fun _ he => absurd he List.not_mem_nil

omit [ICongestionControl σ] in
/-- **A connection behind its SYN.** -/
theorem Quoting.opened {p : Ptr} {tr : List Event} {t : TCB σ} (h : Unsent t)
    (hsilent : ∀ ev ∈ tr, ev.ptr ≠ some p) (now : Nat) {flags : UInt8}
    (hflags : flags = TCPFlags.syn ∨ flags = TCPFlags.syn ||| TCPFlags.ack) (s : TCPState)
    (k : TCPTuple) :
    Quoting [] ⟨p, { t.sendSyn now flags with state := s }, tr ++ [.created p k,
      .sent p .segment (t.segment flags t.sndUna []), .moved p t.state s]⟩ := by
  obtain ⟨hstream, hnumbered, -⟩ := silent_trace hsilent
  have hspace : seqSpace flags 0 = 1 := by rcases hflags with rfl | rfl <;> decide
  have hsyn : TCPFlags.has flags TCPFlags.syn = true ∧ TCPFlags.has flags TCPFlags.fin = false := by
    rcases hflags with rfl | rfl <;> decide
  have hstream' : stream p (tr ++ [.created p k]) = [none] := by
    rw [stream_snoc, hstream, Event.slots, if_pos rfl]
    rfl
  have hnumbered' : numbered p (tr ++ [.created p k]) = 1 := by
    rw [numbered_snoc, hnumbered, Event.numbers, if_pos rfl]
  have hq : (t.sendSyn now flags).retransmitQueue =
      [⟨t.sndUna, t.sndNxt + BitVec.ofNat 32 (seqSpace flags 0), [], now,
        now + t.rtoUs.toNat, 0⟩] := by
    show t.retransmitQueue ++ [_] = _
    rw [h.queue]
    rfl
  have hnxt : t.sndNxt + BitVec.ofNat 32 (seqSpace flags 0) = t.iss + BitVec.ofNat 32 1 := by
    rw [hspace, h.sndNxt]
  have huna : t.sndUna = t.iss + BitVec.ofNat 32 0 := h.sndUna.trans (BitVec.add_zero _).symm
  -- the TCB with its SYN in the queue, before it is on the wire
  have hqueued : Quoting [] ⟨p, t.sendSyn now flags, tr ++ [.created p k]⟩ := by
    refine ⟨AllQuote.snoc (.of_silent hsilent) fun path seg heq => Event.noConfusion heq, ?_,
      ⟨0, Nat.zero_le _, ?_, ?_⟩, ?_⟩
    · show t.sndNxt + BitVec.ofNat 32 (seqSpace flags 0) = t.iss + BitVec.ofNat 32 (numbered p _)
      rw [hnumbered', hnxt]
    · show Tiling.Tiles t.iss 0 ((t.sendSyn now flags).retransmitQueue.map _) (numbered p _)
      rw [hq, hnumbered']
      exact ⟨huna, hnxt, rfl⟩
    · show (stream p _).drop 0 = Tiling.items ((t.sendSyn now flags).retransmitQueue.map _) ++ _
      rw [hq, hstream']
      rfl
    · show ∀ e ∈ (t.sendSyn now flags).retransmitQueue, _
      rw [hq]
      exact List.forall_mem_cons.mpr ⟨Nat.zero_le _, fun _ he => absurd he List.not_mem_nil⟩
  have hslots : (t.segment flags t.sndUna []).slots = [none] := by
    rw [TCPSegment.slots, show (t.segment flags t.sndUna []).isSyn = true from hsyn.1,
      show (t.segment flags t.sndUna []).isFin = false from hsyn.2]
    rfl
  have hsent := hqueued.unnumbered .segment (t.segment flags t.sndUna [])
    (Or.inr ⟨rfl, hsyn.2⟩) ⟨⟨0, huna, by rw [hslots, hstream']; exact List.prefix_refl _⟩,
      fun _ => rfl, Nat.zero_le _⟩
  have hall := hsent.setState s
  rw [Conn.setState, log_trace, List.append_assoc, List.append_assoc] at hall
  exact hall

omit [ICongestionControl σ] in
/-- A connection as it begins. -/
theorem Fresh.quoting (h : Fresh c) : c.Quoting c.tcb.sendBuffer.contents := by
  cases h with
  | listen hsilent localIp port onAccept =>
    exact Quoting.unsent ⟨rfl, rfl, rfl, rfl, Nat.zero_le _⟩ hsilent
  | @opened p tr hsilent t ht now flags hflags s =>
    have hempty := ht.buffer
    show Quoting t.sendBuffer.contents _
    rw [hempty]
    exact Quoting.opened ht hsilent now hflags s t.tTuple

end Conn

namespace TCPConnectionManager
variable [ICongestionControl σ] {m : TCPConnectionManager σ} {p : Ptr} {t : TCB σ}

/-- **What a connection sends is its stream**: in every reachable state, for any segments
that came in, whatever their acknowledgements are. -/
theorem segments_quote (h : m.Reachable) (hp : m.heap p = some t) (hmss : t.MssFits) :
    AllQuote t.iss p m.trace ∧
      t.sndNxt = t.iss + BitVec.ofNat 32 (numbered p m.trace) ∧
      (stream p m.trace).drop (numbered p m.trace) = t.sendBuffer.contents.map some := by
  obtain ⟨c₀, c, hptr, hfresh, hturns, hc⟩ := h.history.2 p (h.wellFormed.fresh p t hp)
  obtain rfl : p = c.ptr := hptr.symm.trans hturns.ptr.symm
  obtain rfl := hc.tcb t hp
  have hquoting : c.Quoting c.tcb.sendBuffer.contents := by
    refine hturns.quoting ?_ hfresh.quoting
    unfold TCB.MssFits
    rw [← hturns.kept.2]
    exact hmss
  rw [← hc.trace]
  exact ⟨hquoting.sent, hquoting.sndNxt, hquoting.behind⟩

/-- Two bytes are out and one waits when the peer acknowledges number 100; two more follow. -/
def overacked : List (Input (TCPCubic Unit)) :=
  [⟨.silent 0 0, .call (.setDefaultOptions { recvBufferSize := 16, sendBufferSize := 16 })⟩,
    ⟨.silent 0 0, .call (.connect 0x0a000002 80 5000 none)⟩,
    ⟨.silent 1 0, .segment ⟨0x0a000002, 0x0a000001, 80, 5000, 0, 1,
      TCPFlags.syn ||| TCPFlags.ack, 65535, []⟩⟩,
    ⟨.silent 2 0, .call (.send 0 [1, 2])⟩, ⟨.silent 2 0, .call (.send 0 [3])⟩,
    ⟨.silent 3 0, .segment ⟨0x0a000002, 0x0a000001, 80, 5000, 1, 100, TCPFlags.ack, 65535, []⟩⟩,
    ⟨.silent 4 0, .call (.send 0 [4, 5])⟩]

/-- The queue is gone, `snd_una` lies ahead, and the stream is kept. -/
theorem overacked_quotes :
    AllQuote 0 0 (GuardedRun.run step (init 0x0a000001) overacked).trace ∧
      (stream 0 (GuardedRun.run step (init 0x0a000001) overacked).trace).drop 3 =
        [some 3, some 4, some 5] := by
  obtain ⟨t, ht, hall⟩ : ∃ t, (GuardedRun.run step (init 0x0a000001) overacked).heap 0 = some t ∧
      (t.iss, t.options.mss, t.sendBuffer.contents, t.sndUna, t.retransmitQueue.length) =
        (0, 1460, [3, 4, 5], 100, 0) := by
    exact Option.map_eq_some_iff.mp (by decide +kernel)
  simp only [Prod.mk.injEq] at hall
  obtain ⟨hiss, hmss, hcontents, -⟩ := hall
  have hfits : t.MssFits := by
    rw [TCB.MssFits, hmss]
    decide
  obtain ⟨hsent, -, hbehind⟩ := segments_quote ⟨_, _, rfl⟩ ht hfits
  have hnumbered : numbered 0 (GuardedRun.run step (init 0x0a000001) overacked).trace = 3 := by
    decide +kernel
  rw [hiss] at hsent
  rw [hnumbered, hcontents] at hbehind
  exact ⟨hsent, hbehind⟩

end TCPConnectionManager
end NeuStack
