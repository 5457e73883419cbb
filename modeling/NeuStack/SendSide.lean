import NeuStack.SendStream
import NeuStack.Shape

/-! # The send side of one connection

`Sound ack B pending c` says how the stream of `c` is laid out: `snd_una` and
`snd_nxt` are at positions of it, the queue tiles what lies between them, at most
`B` numbers, and behind `snd_nxt` come the bytes `pending`, which wait to be sent.
`pending` is what is in the send buffer, but for the moments when bytes are on
their way from one container to the other; `ack` is the acknowledgement of the
segment that is being processed, if there is one.

Each way to send is given once on it (`Sound.bareAck`, `Sound.resend`,
`Sound.probe`, `Sound.transmit`, `Sound.sendFin`).
-/
namespace NeuStack
variable {σ : Type}

/-- A segment of the MSS fits the data array of a queue entry. -/
def TCB.MssFits (t : TCB σ) : Prop := 1 ≤ t.options.mss.toNat ∧ t.options.mss.toNat ≤ tcpMssMax

namespace Conn

/-- From position `a` on, the stream is what the queue holds and then `pending`; if the
number `ack` would advance `snd_una`, it is one that was used. -/
structure LaidFrom (a : Nat) (ack : Option (BitVec 32)) (B : Nat) (pending : List UInt8)
    (c : Conn σ) : Prop where
  room : numbered c.ptr c.trace ≤ a + B
  inStream : a ≤ (stream c.ptr c.trace).length
  sndUna : c.tcb.sndUna = c.tcb.iss + BitVec.ofNat 32 a
  tiles : Tiling.Tiles c.tcb.iss a (c.tcb.retransmitQueue.map RetransmitEntry.block)
    (numbered c.ptr c.trace)
  drop : (stream c.ptr c.trace).drop a =
    Tiling.items (c.tcb.retransmitQueue.map RetransmitEntry.block) ++ pending.map some
  used : ∀ x ∈ ack, seqGt x c.tcb.sndUna = true →
    ∃ b, a ≤ b ∧ b ≤ numbered c.ptr c.trace ∧ x = c.tcb.iss + BitVec.ofNat 32 b

/-- **The layout of the stream**, up to the bytes `pending`. -/
structure Sound (ack : Option (BitVec 32)) (B : Nat) (pending : List UInt8) (c : Conn σ) :
    Prop where
  wire : Wire c.tcb.iss c.ptr c.trace
  mss : c.tcb.MssFits
  window : c.tcb.sndWnd ≤ 65535
  sndNxt : c.tcb.sndNxt = c.tcb.iss + BitVec.ofNat 32 (numbered c.ptr c.trace)
  laid : ∃ a, c.LaidFrom a ack B pending
  small : ∀ e ∈ c.tcb.retransmitQueue, e.data.length ≤ tcpMssMax

variable {ack : Option (BitVec 32)} {B B' : Nat} {pending data rest : List UInt8}
  {c c' : Conn σ} {ev : Event} {seg : TCPSegment}

theorem Sound.mono (h : c.Sound ack B pending) (hB : B ≤ B') : c.Sound ack B' pending := by
  obtain ⟨a, hroom, hin, huna, htiles, hdrop, hused⟩ := h.laid
  exact ⟨h.wire, h.mss, h.window, h.sndNxt, ⟨a, by omega, hin, huna, htiles, hdrop, hused⟩,
    h.small⟩

/-- Changes that spare the variables of the send side; of the queue entries, the timers and
counts do not matter. -/
theorem Sound.requeue (h : c.Sound ack B pending) (hptr : c'.ptr = c.ptr)
    (htrace : c'.trace = c.trace) (hiss : c'.tcb.iss = c.tcb.iss)
    (hopts : c'.tcb.options = c.tcb.options) (hwnd : c'.tcb.sndWnd = c.tcb.sndWnd)
    (huna : c'.tcb.sndUna = c.tcb.sndUna) (hnxt : c'.tcb.sndNxt = c.tcb.sndNxt)
    (hq : c'.tcb.retransmitQueue.map RetransmitEntry.block =
      c.tcb.retransmitQueue.map RetransmitEntry.block)
    (hsmall : ∀ e ∈ c'.tcb.retransmitQueue, e.data.length ≤ tcpMssMax) :
    c'.Sound ack B pending := by
  obtain ⟨h1, h2, h3, h4, ⟨a, h5, h6, h7, h8, h9, h10⟩, -⟩ := h
  unfold TCB.MssFits at h2
  refine ⟨?_, ?_, ?_, ?_, ⟨a, ?_, ?_, ?_, ?_, ?_, ?_⟩, hsmall⟩ <;>
    simp only [TCB.MssFits, hptr, htrace, hiss, hopts, hwnd, huna, hnxt, hq] <;> assumption

/-- Changes that spare the queue as well. -/
theorem Sound.congr (h : c.Sound ack B pending) (hptr : c'.ptr = c.ptr)
    (htrace : c'.trace = c.trace) (hiss : c'.tcb.iss = c.tcb.iss)
    (hopts : c'.tcb.options = c.tcb.options) (hwnd : c'.tcb.sndWnd = c.tcb.sndWnd)
    (huna : c'.tcb.sndUna = c.tcb.sndUna) (hnxt : c'.tcb.sndNxt = c.tcb.sndNxt)
    (hq : c'.tcb.retransmitQueue = c.tcb.retransmitQueue) : c'.Sound ack B pending :=
  h.requeue hptr htrace hiss hopts hwnd huna hnxt (by rw [hq]) (by rw [hq]; exact h.small)

/-- `snd_una` is as far behind `snd_nxt` as there are items in the queue. -/
theorem LaidFrom.inFlight {a : Nat} (h : c.LaidFrom a ack B pending) (hB : B < 2 ^ 31)
    (hnxt : c.tcb.sndNxt = c.tcb.iss + BitVec.ofNat 32 (numbered c.ptr c.trace)) :
    numbered c.ptr c.trace = a + c.tcb.inFlight ∧ c.tcb.inFlight ≤ B := by
  have hn := h.tiles.length_items
  have hroom := h.room
  have hflight : c.tcb.inFlight = numbered c.ptr c.trace - a := by
    rw [TCB.inFlight, hnxt, h.sndUna]
    exact SerialNumber.toNat_sub_of_le _ (by omega) (by omega)
  omega

theorem LaidFrom.numbered_le {a : Nat} (h : c.LaidFrom a ack B pending) :
    numbered c.ptr c.trace ≤ (stream c.ptr c.trace).length := by
  have hlen := congrArg List.length h.drop
  rw [List.length_drop, List.length_append] at hlen
  have hin := h.inStream
  rw [h.tiles.length_items]
  omega

/-- Behind `snd_nxt` come the bytes that wait. -/
theorem Sound.behind (h : c.Sound ack B pending) :
    (stream c.ptr c.trace).drop (numbered c.ptr c.trace) = pending.map some := by
  obtain ⟨a, h⟩ := h.laid
  rw [h.tiles.length_items, ← List.drop_drop, h.drop, List.drop_left]

/-! ## Events -/

/-- An event that leaves the stream alone; if it is a segment, the segment is right. -/
theorem Sound.log (h : c.Sound ack B pending) (hslots : ev.slots c.ptr = [])
    (hnumbers : ev.numbers c.ptr = 0)
    (hev : ∀ path seg, ev = .sent c.ptr path seg →
      Carries c.tcb.iss c.ptr (c.trace ++ [ev]) seg) : (c.log ev).Sound ack B pending := by
  have hstream : stream c.ptr (c.trace ++ [ev]) = stream c.ptr c.trace := by
    rw [stream_snoc, hslots, List.append_nil]
  have hnumbered : numbered c.ptr (c.trace ++ [ev]) = numbered c.ptr c.trace := by
    rw [numbered_snoc, hnumbers, Nat.add_zero]
  refine ⟨h.wire.snoc hev, h.mss, h.window, ?_, ?_, h.small⟩
  · show c.tcb.sndNxt = c.tcb.iss + BitVec.ofNat 32 (numbered c.ptr (c.trace ++ [ev]))
    rw [hnumbered]
    exact h.sndNxt
  · obtain ⟨a, hroom, hin, huna, htiles, hdrop, hused⟩ := h.laid
    refine ⟨a, ?_, ?_, huna, ?_, ?_, ?_⟩ <;>
      simp only [log_ptr, log_trace, log_tcb, hstream, hnumbered] <;> assumption

theorem Sound.silent (h : c.Sound ack B pending) (hev : ev.Silent c.ptr) :
    (c.log ev).Sound ack B pending :=
  h.log hev.slots hev.numbers fun path seg heq => absurd heq (hev.notSent path seg)

theorem Sound.setState (h : c.Sound ack B pending) (s : TCPState) :
    (c.setState s).Sound ack B pending := by
  have hmoved : (Event.moved c.ptr c.tcb.state s).Silent c.ptr := ⟨rfl, rfl, nofun⟩
  have hlog := h.silent hmoved
  exact hlog.congr rfl rfl rfl rfl rfl rfl rfl rfl

/-- `send()` takes some bytes. -/
theorem Sound.accept (h : c.Sound ack B pending) (data : List UInt8) :
    (c.log (.accepted c.ptr data)).Sound ack B (pending ++ data) := by
  have hslots : (Event.accepted c.ptr data).slots c.ptr = data.map some := if_pos rfl
  have hnumbered : numbered c.ptr (c.trace ++ [.accepted c.ptr data]) =
      numbered c.ptr c.trace := by
    rw [numbered_snoc]
    rfl
  have hwire : Wire c.tcb.iss c.ptr (c.trace ++ [.accepted c.ptr data]) :=
    h.wire.snoc fun path seg heq => by cases heq
  refine ⟨hwire, h.mss, h.window, ?_, ?_, h.small⟩
  · show c.tcb.sndNxt = c.tcb.iss + BitVec.ofNat 32 (numbered c.ptr (c.trace ++ [_]))
    rw [hnumbered]
    exact h.sndNxt
  · obtain ⟨a, hroom, hin, huna, htiles, hdrop, hused⟩ := h.laid
    have hstream : stream c.ptr (c.trace ++ [.accepted c.ptr data]) =
        stream c.ptr c.trace ++ data.map some := by
      rw [stream_snoc, hslots]
    refine ⟨a, ?_, ?_, huna, ?_, ?_, ?_⟩ <;>
      simp only [log_ptr, log_trace, log_tcb, hstream, hnumbered]
    · exact hroom
    · rw [List.length_append]
      omega
    · exact htiles
    · rw [List.drop_append_of_le_length hin, hdrop, List.map_append, List.append_assoc]
    · exact hused

/-! ## The ways to send -/

/-- A segment that uses no numbers is right if its place is. -/
theorem Sound.unnumbered {path : SendPath} (h : c.Sound ack B pending) {s : Nat}
    (hpath : path ≠ .segment ∨ (seg.data = [] ∧ seg.isFin = false))
    (hle : s ≤ numbered c.ptr c.trace) (hnear : numbered c.ptr c.trace < s + 2 ^ 31)
    (hseq : seg.seqNum = c.tcb.iss + BitVec.ofNat 32 s)
    (hslots : seg.slots <+: (stream c.ptr c.trace).drop s) :
    (c.log (.sent c.ptr path seg)).Sound ack B pending := by
  have hev : (Event.sent c.ptr path seg).slots c.ptr = [] ∧
      (Event.sent c.ptr path seg).numbers c.ptr = 0 := by
    cases path with
    | segment =>
      obtain ⟨hdata, hfin⟩ := hpath.resolve_left fun hne => hne rfl
      simp [Event.slots, Event.numbers, TCPSegment.dataLength, hdata, hfin]
    | raw => exact ⟨rfl, rfl⟩
    | probe => exact ⟨rfl, rfl⟩
  refine h.log hev.1 hev.2 fun path' seg' heq => ?_
  cases heq
  refine ⟨s, ?_, ?_, hseq, ?_⟩
  · rw [numbered_snoc, hev.2]
    exact hle
  · rw [numbered_snoc, hev.2]
    exact hnear
  · rw [stream_snoc, hev.1, List.append_nil]
    exact hslots

/-- A segment without data, SYN or FIN. -/
theorem Sound.bare (h : c.Sound ack B pending) {flags : UInt8} (hflags : TCPFlags.Plain flags) :
    (c.log (.sent c.ptr .segment (c.tcb.segment flags c.tcb.sndNxt []))).Sound ack B pending := by
  have hslots : (c.tcb.segment flags c.tcb.sndNxt []).slots = [] := TCPSegment.slots_plain hflags
  refine h.unnumbered (s := numbered c.ptr c.trace) (Or.inr ⟨rfl, hflags.2⟩) (Nat.le_refl _)
    (by omega) h.sndNxt ?_
  rw [hslots]
  exact List.nil_prefix

/-- A bare ACK. -/
theorem Sound.bareAck (h : c.Sound ack B pending) (env : Env) :
    (c.sendSegment env TCPFlags.ack []).Sound ack B pending := by
  rw [sendSegment_ack]
  exact (h.bare TCPFlags.plain_ack).congr rfl rfl rfl rfl rfl rfl (BitVec.add_zero _) rfl

/-- The head of the queue again, or a part of it. -/
theorem Sound.resend (h : c.Sound ack B pending) (hB : B < 2 ^ 31) {e : RetransmitEntry}
    {q : List RetransmitEntry} (hq : c.tcb.retransmitQueue = e :: q) (flags : UInt8)
    (data : List UInt8)
    (hslots : (c.tcb.segment flags e.seqStart data).slots <+: e.slots) :
    (c.rawSend flags e.seqStart data).Sound ack B pending := by
  unfold rawSend
  split
  · exact h
  obtain ⟨a, hlaid⟩ := h.laid
  have htiles := hlaid.tiles
  have hdrop := hlaid.drop
  have hroom := hlaid.room
  have hn := htiles.length_items
  rw [hq, List.map_cons] at htiles hdrop
  refine h.unnumbered (Or.inl (by decide)) (s := a) (by omega) (by omega) htiles.1 ?_
  rw [hdrop, Tiling.items_cons, List.append_assoc]
  exact hslots.trans (List.prefix_append ..)

/-- The first byte that waits. -/
theorem Sound.probe (h : c.Sound ack B c.tcb.sendBuffer.contents) :
    c.sendZeroWindowProbe.Sound ack B c.tcb.sendBuffer.contents := by
  unfold sendZeroWindowProbe
  split
  · exact h
  refine h.unnumbered (Or.inl (by decide)) (s := numbered c.ptr c.trace) (Nat.le_refl _)
    (by omega) h.sndNxt ?_
  rw [h.behind, TCPSegment.slots_plain]
  · show (c.tcb.sendBuffer.peek 1).map some <+: _
    rw [StreamBuffer.peek_eq, List.map_take]
    exact List.take_prefix ..
  · exact TCPFlags.plain_ack

/-- A segment that goes into the queue: its numbers are new, and the stream has what it
carries under them. -/
theorem Sound.enqueue (h : c.Sound ack B pending) (e : RetransmitEntry) (seg : TCPSegment)
    (hB : B < 2 ^ 31) (hB' : B' < 2 ^ 31)
    (hroom : c.tcb.inFlight + e.slots.length ≤ B')
    (hnumbers : (Event.sent c.ptr .segment seg).numbers c.ptr = e.slots.length)
    (hslots : seg.slots = e.slots) (hseq : seg.seqNum = c.tcb.sndNxt)
    (hsmall : e.data.length ≤ tcpMssMax) (hstart : e.seqStart = c.tcb.sndNxt)
    (hstop : e.seqEnd = c.tcb.sndNxt + BitVec.ofNat 32 e.slots.length)
    (hahead : pending.map some ++ (Event.sent c.ptr .segment seg).slots c.ptr =
      e.slots ++ rest.map some)
    (hptr : c'.ptr = c.ptr) (htrace : c'.trace = c.trace ++ [.sent c.ptr .segment seg])
    (hiss : c'.tcb.iss = c.tcb.iss) (hopts : c'.tcb.options = c.tcb.options)
    (hwnd : c'.tcb.sndWnd = c.tcb.sndWnd) (huna : c'.tcb.sndUna = c.tcb.sndUna)
    (hnxt : c'.tcb.sndNxt = e.seqEnd)
    (hq : c'.tcb.retransmitQueue = c.tcb.retransmitQueue ++ [e]) : c'.Sound ack B' rest := by
  obtain ⟨a, hlaid⟩ := h.laid
  obtain ⟨hflight, -⟩ := hlaid.inFlight hB h.sndNxt
  have hin := hlaid.numbered_le
  have hnumbered : numbered c'.ptr c'.trace = numbered c.ptr c.trace + e.slots.length := by
    rw [hptr, htrace, numbered_snoc, hnumbers]
  have hstream : stream c'.ptr c'.trace =
      stream c.ptr c.trace ++ (Event.sent c.ptr .segment seg).slots c.ptr := by
    rw [hptr, htrace, stream_snoc]
  have hbehind : (stream c'.ptr c'.trace).drop (numbered c.ptr c.trace) =
      e.slots ++ rest.map some := by
    rw [hstream, List.drop_append_of_le_length hin, h.behind, hahead]
  have hend : e.seqEnd = c.tcb.iss + BitVec.ofNat 32 (numbered c.ptr c.trace + e.slots.length) := by
    rw [hstop, h.sndNxt, SerialNumber.add_ofNat_add]
  refine ⟨?_, ?_, ?_, ?_, ⟨a, ?_, ?_, ?_, ?_, ?_, ?_⟩, ?_⟩
  · rw [hiss, hptr, htrace]
    refine h.wire.snoc fun path seg' heq => ?_
    cases heq
    rw [hptr, htrace] at hnumbered hbehind
    refine ⟨numbered c.ptr c.trace, ?_, ?_, ?_, ?_⟩
    · omega
    · omega
    · rw [hseq, h.sndNxt]
    · rw [hbehind, hslots]
      exact List.prefix_append ..
  · unfold TCB.MssFits
    rw [hopts]
    exact h.mss
  · rw [hwnd]
    exact h.window
  · rw [hnxt, hiss, hnumbered, hend]
  · omega
  · rw [hstream, List.length_append]
    have := hlaid.inStream
    omega
  · rw [huna, hiss]
    exact hlaid.sndUna
  · rw [hiss, hq, hnumbered, List.map_append]
    refine hlaid.tiles.snoc ?_ hend
    exact hstart.trans h.sndNxt
  · rw [hq, List.map_append, List.map_singleton, Tiling.items_snoc, hstream,
      List.drop_append_of_le_length hlaid.inStream, hlaid.drop, List.append_assoc,
      List.append_assoc, hahead]
    rfl
  · rw [huna, hiss, hnumbered]
    intro x hx hgt
    obtain ⟨b, hab, hbn, hxb⟩ := hlaid.used x hx hgt
    exact ⟨b, hab, by omega, hxb⟩
  · rw [hq]
    intro e' he'
    rcases List.mem_append.mp he' with hold | hnew
    · exact h.small e' hold
    · rw [List.mem_singleton] at hnew
      rw [hnew]
      exact hsmall

theorem seqSpace_push (len : Nat) : seqSpace (TCPFlags.ack ||| TCPFlags.psh) len = len := by
  rw [seqSpace, TCPFlags.plain_push.1, TCPFlags.plain_push.2, if_neg Bool.false_ne_true,
    Nat.zero_add, Nat.add_zero]

theorem sendSegment_push_nil (env : Env) (c : Conn σ) :
    c.sendSegment env (TCPFlags.ack ||| TCPFlags.psh) [] =
      { c with
        tcb := c.tcb.countSent env.now (TCPFlags.ack ||| TCPFlags.psh) 0
        trace := c.trace ++ [.sent c.ptr .segment
          (c.tcb.segment (TCPFlags.ack ||| TCPFlags.psh) c.tcb.sndNxt [])] } := by
  unfold sendSegment
  rfl

/-- Bytes that wait, for the first time on the wire. -/
theorem Sound.transmit (h : c.Sound ack B (data ++ rest)) (env : Env) (hB : B < 2 ^ 31)
    (hle : data.length ≤ tcpMssMax) (hroom : c.tcb.inFlight + data.length ≤ B) :
    (c.sendSegment env (TCPFlags.ack ||| TCPFlags.psh) data).Sound ack B rest := by
  rcases Nat.eq_zero_or_pos data.length with hzero | hpos
  · rw [List.length_eq_zero_iff] at hzero
    subst hzero
    rw [sendSegment_push_nil]
    have hsent := Sound.bare h TCPFlags.plain_push
    exact hsent.congr rfl rfl rfl rfl rfl rfl (BitVec.add_zero _) rfl
  · have hne : data ≠ [] := List.length_pos_iff_ne_nil.mp hpos
    rw [sendSegment_data env c hpos hle]
    have hflags : (c.tcb.segment (TCPFlags.ack ||| TCPFlags.psh) c.tcb.sndNxt data).isFin = false :=
      TCPFlags.plain_push.2
    let e : RetransmitEntry := ⟨c.tcb.sndNxt, c.tcb.sndNxt + BitVec.ofNat 32 data.length, data,
      env.now, env.now + c.tcb.rtoUs.toNat, 0⟩
    have hslots : e.slots = data.map some := if_neg hne
    have hlen : e.slots.length = data.length := by rw [hslots, List.length_map]
    refine h.enqueue e (c.tcb.segment _ c.tcb.sndNxt data) hB hB ?_ ?_ ?_ rfl hle rfl
      ?_ ?_ rfl rfl rfl rfl rfl rfl ?_ ?_
    · rw [hlen]
      exact hroom
    · rw [hlen, Event.numbers, if_pos rfl, hflags]
      rfl
    · rw [hslots]
      exact TCPSegment.slots_plain TCPFlags.plain_push
    · rw [hlen]
    · rw [Event.slots, hflags, if_neg (by simp), hslots, List.append_nil, List.map_append]
    · show c.tcb.sndNxt + BitVec.ofNat 32 (seqSpace _ data.length) = _
      rw [seqSpace_push]
    · show c.tcb.retransmitQueue ++ [⟨c.tcb.sndNxt, c.tcb.sndNxt + BitVec.ofNat 32 (seqSpace _ _),
        data, env.now, env.now + c.tcb.rtoUs.toNat, 0⟩] = _
      rw [seqSpace_push]

/-- A FIN, once nothing waits. -/
theorem Sound.sendFin (h : c.Sound ack B []) (env : Env) (hB : B + 1 < 2 ^ 31) :
    (c.sendSegment env (TCPFlags.fin ||| TCPFlags.ack) []).Sound ack (B + 1) [] := by
  rw [sendSegment_fin]
  have hflags : (c.tcb.segment (TCPFlags.fin ||| TCPFlags.ack) c.tcb.sndNxt []).isFin = true ∧
      (c.tcb.segment (TCPFlags.fin ||| TCPFlags.ack) c.tcb.sndNxt []).isSyn = false := by
    constructor
    · show TCPFlags.has (TCPFlags.fin ||| TCPFlags.ack) TCPFlags.fin = true
      decide
    · show TCPFlags.has (TCPFlags.fin ||| TCPFlags.ack) TCPFlags.syn = false
      decide
  obtain ⟨a, hlaid⟩ := h.laid
  obtain ⟨-, hroom⟩ := hlaid.inFlight (by omega) h.sndNxt
  let e : RetransmitEntry := ⟨c.tcb.sndNxt, c.tcb.sndNxt + 1, [], env.now,
    env.now + c.tcb.rtoUs.toNat, 0⟩
  refine h.enqueue e (c.tcb.segment _ c.tcb.sndNxt []) (by omega) hB ?_ ?_ ?_ rfl
    (Nat.zero_le _) rfl rfl ?_ rfl rfl rfl rfl rfl rfl rfl rfl
  · show c.tcb.inFlight + 1 ≤ B + 1
    omega
  · rw [Event.numbers, if_pos rfl, hflags.1]
    rfl
  · rw [TCPSegment.slots, hflags.1, hflags.2]
    rfl
  · rw [Event.slots, if_pos ⟨rfl, hflags.1⟩]
    rfl

/-! ## What is acknowledged -/

theorem length_slots (e : RetransmitEntry) :
    e.slots.length = if e.data = [] then 1 else e.data.length := by
  unfold RetransmitEntry.slots
  split
  · rfl
  · rw [List.length_map]

/-- An entry that loses its front, `k` of its numbers. -/
theorem block_truncate {e : RetransmitEntry} {iss : BitVec 32} {a k : Nat}
    (hstart : e.seqStart = iss + BitVec.ofNat 32 a) (hsmall : e.data.length ≤ tcpMssMax)
    (hpos : 0 < k) (hlt : k < e.slots.length) :
    (e.truncate (iss + BitVec.ofNat 32 (a + k))).block =
        ⟨iss + BitVec.ofNat 32 (a + k), e.seqEnd, e.slots.drop k⟩ ∧
      (e.truncate (iss + BitVec.ofNat 32 (a + k))).data.length ≤ tcpMssMax := by
  rw [length_slots] at hlt
  -- only data takes more than one number
  have hne : e.data ≠ [] := by
    intro hnil
    rw [if_pos hnil] at hlt
    omega
  rw [if_neg hne] at hlt
  have hk : k ≤ tcpMssMax := by omega
  have hconfirmed : (iss + BitVec.ofNat 32 (a + k) - e.seqStart).toNat = k := by
    unfold tcpMssMax at hk
    rw [hstart, SerialNumber.toNat_sub_of_le _ (Nat.le_add_right a k) (by omega),
      Nat.add_sub_cancel_left]
  have hrest : e.data.drop k ≠ [] := by
    rw [← List.length_pos_iff_ne_nil, List.length_drop]
    omega
  have htruncate : e.truncate (iss + BitVec.ofNat 32 (a + k)) =
      { e with seqStart := iss + BitVec.ofNat 32 (a + k), data := e.data.drop k } := by
    unfold RetransmitEntry.truncate
    dsimp only
    rw [hconfirmed, if_pos hk]
  have hslots : (e.truncate (iss + BitVec.ofNat 32 (a + k))).slots = e.slots.drop k := by
    rw [htruncate, RetransmitEntry.slots, if_neg hrest, RetransmitEntry.slots, if_neg hne,
      List.map_drop]
  refine ⟨?_, ?_⟩
  · rw [RetransmitEntry.block, hslots, htruncate]
  · rw [htruncate, List.length_drop]
    omega

/-- **The trimmed queue** tiles what is left. -/
theorem tiles_trimQueue {iss : BitVec 32} {a b n : Nat} {q : List RetransmitEntry} (now : Nat)
    (established : Bool) (r : TCBRtt)
    (h : Tiling.Tiles iss a (q.map RetransmitEntry.block) n) (hab : a ≤ b) (hbn : b ≤ n)
    (hnear : n < a + 2 ^ 31) (hsmall : ∀ e ∈ q, e.data.length ≤ tcpMssMax) :
    let q' := (trimQueue now established (iss + BitVec.ofNat 32 b) r q).2
    Tiling.Tiles iss b (q'.map RetransmitEntry.block) n ∧
      Tiling.items (q'.map RetransmitEntry.block) =
        (Tiling.items (q.map RetransmitEntry.block)).drop (b - a) ∧
      ∀ e ∈ q', e.data.length ≤ tcpMssMax := by
  induction q generalizing a r with
  | nil =>
    have hn : a = n := h
    exact ⟨Nat.le_antisymm hbn (hn ▸ hab), List.drop_nil.symm, fun e he => nomatch he⟩
  | cons e q ih =>
    have hlen : n = a + (e.slots.length + (Tiling.items (q.map RetransmitEntry.block)).length) := by
      have := h.length_items
      rwa [List.map_cons, Tiling.items_cons, List.length_append] at this
    obtain ⟨hstart, hstop, htail⟩ := h
    have hstart : e.seqStart = iss + BitVec.ofNat 32 a := hstart
    have hstop : e.seqEnd = iss + BitVec.ofNat 32 (a + e.slots.length) := hstop
    have htail : Tiling.Tiles iss (a + e.slots.length) (q.map RetransmitEntry.block) n := htail
    unfold trimQueue
    dsimp only
    rw [List.map_cons, Tiling.items_cons]
    have hwhole : seqLe e.seqEnd (iss + BitVec.ofNat 32 b) = true ↔ a + e.slots.length ≤ b := by
      rw [hstop]
      exact SerialNumber.le_add iss (by omega) (by omega)
    have hpart : seqLt e.seqStart (iss + BitVec.ofNat 32 b) = true ↔ a < b := by
      rw [hstart]
      exact SerialNumber.lt_add iss (by omega) (by omega)
    split
    · rename_i hle
      rw [hwhole] at hle
      obtain ⟨htiles, hitems, hsmall'⟩ := ih _ htail hle (by omega)
        fun e' he' => hsmall e' (List.mem_cons_of_mem _ he')
      refine ⟨htiles, ?_, hsmall'⟩
      rw [hitems, show b - a = e.block.items.length + (b - (a + e.slots.length)) by
        show b - a = e.slots.length + _; omega]
      exact (List.drop_length_add_append _).symm
    rename_i hgt
    rw [hwhole] at hgt
    split
    · -- the acknowledgement ends inside the entry
      rename_i hlt
      rw [hpart] at hlt
      obtain ⟨hblock, hsmall'⟩ := block_truncate (k := b - a) hstart
        (hsmall e (List.mem_cons_self ..)) (by omega) (by omega)
      rw [Nat.add_sub_cancel' hab] at hblock hsmall'
      have hwholeTiles : Tiling.Tiles iss a (e.block :: q.map RetransmitEntry.block) n :=
        ⟨hstart, hstop, htail⟩
      have htiles := hwholeTiles.shorten (show b - a ≤ e.slots.length by omega)
      rw [Nat.add_sub_cancel' hab] at htiles
      refine ⟨?_, ?_, fun e' he' => ?_⟩
      · rw [List.map_cons, hblock]
        exact htiles
      · rw [List.map_cons, hblock, Tiling.items_cons]
        exact (List.drop_append_of_le_length (show b - a ≤ e.slots.length by omega)).symm
      · rcases List.mem_cons.mp he' with rfl | he'
        · exact hsmall'
        · exact hsmall e' (List.mem_cons_of_mem _ he')
    · rename_i hge
      rw [hpart] at hge
      have hb : b = a := by omega
      subst hb
      rw [Nat.sub_self, List.drop_zero]
      exact ⟨⟨hstart, hstop, htail⟩, by rw [List.map_cons, Tiling.items_cons], hsmall⟩

variable [ICongestionControl σ]

/-- **What `process_ack` takes off the queue.** -/
theorem Sound.advance {x : BitVec 32} (h : c.Sound (some x) B pending) (hB : B < 2 ^ 31)
    (env : Env) (hgt : seqGt x c.tcb.sndUna = true) :
    (c.advance env x).Sound (some x) B pending := by
  obtain ⟨a, hlaid⟩ := h.laid
  obtain ⟨b, hab, hbn, hx⟩ := hlaid.used x rfl hgt
  have hroom := hlaid.room
  have hin := hlaid.numbered_le
  have hn := hlaid.tiles.length_items
  obtain ⟨htiles, hitems, hsmall⟩ := tiles_trimQueue env.now (c.tcb.state == .established)
    c.tcb.toTCBRtt hlaid.tiles hab hbn (by omega) h.small
  rw [← hx] at htiles hitems hsmall
  refine ⟨h.wire, h.mss, h.window, h.sndNxt, ⟨b, ?_, ?_, hx, htiles, ?_, ?_⟩, hsmall⟩
  · show numbered c.ptr c.trace ≤ b + B
    omega
  · show b ≤ (stream c.ptr c.trace).length
    omega
  · show (stream c.ptr c.trace).drop b = Tiling.items _ ++ _
    have hdrop : (stream c.ptr c.trace).drop b = ((stream c.ptr c.trace).drop a).drop (b - a) := by
      rw [List.drop_drop, Nat.add_sub_cancel' hab]
    rw [hdrop, hlaid.drop, List.drop_append_of_le_length (by omega)]
    exact congrArg (· ++ _) hitems.symm
  · intro y hy hgt'
    cases hy
    have hself : seqGt x x = true := hgt'
    rw [seqGt_self] at hself
    cases hself

end Conn

end NeuStack
