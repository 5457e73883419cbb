import NeuStack.AckHistory
import NeuStack.SynNumbers
import NeuStack.HeardStream

/-! # From one application to the other

Two hosts, and a network between them that loses, repeats, delays and reorders (`TwoHosts`).
All that is asked of it is that it invents nothing: what comes to the receiver under the
addresses of a connection `p` of the sender was sent by `p` (`TwoHosts.Genuine`).  A RST,
whatever comes under other addresses, and whatever comes to the sender, may be anything.

Then every connection of the receiver under these addresses, once it has taken a SYN, counts from
the first number of `p`; its application is handed the beginning of what the application
at `p` handed over; and once it has taken a FIN, it is all that came before it
(`delivered_isPrefix`).  The sender's part is `Conn.Quoting`, the receiver's `Hears`.
-/
namespace NeuStack
variable {σ : Type}

/-! ## The sender -/

namespace TCPConnectionManager
variable [ICongestionControl σ] {m : TCPConnectionManager σ} {p : Ptr} {iss : BitVec 32}
  {t : TCB σ}

/-- **The sender at `p`**, or what was last of it. -/
structure Sends (p : Ptr) (iss : BitVec 32) (m : TCPConnectionManager σ) : Prop where
  wellFormed : m.WellFormed
  made : m.Made
  quoting : ∃ c, m.Remembers c ∧ c.ptr = p ∧ c.tcb.iss = iss ∧ c.tcb.MssFits ∧ c.tcb.Shape ∧
    c.Quoting c.tcb.sendBuffer.contents
  syn : [none] <+: stream p m.trace
  numbers : ∀ ev ∈ m.trace, ev.SynAt iss p

namespace Sends

theorem step (h : m.Sends p iss) (x : Input σ) :
    (m.step x).Sends p iss ∧ stream p m.trace <+: stream p (m.step x).trace := by
  obtain ⟨c, hc, rfl, rfl, hmss, hshape, hquoting⟩ := h.quoting
  obtain ⟨hall, hmade⟩ := unfolds_step h.wellFormed h.made x
  obtain ⟨c', hc', hturns⟩ := hall.advances c hc
  obtain ⟨hiss, hopts⟩ := hturns.kept
  obtain ⟨hshape', hgrows⟩ := hturns.numbersSyns hshape
  have hstream : stream c.ptr m.trace <+: stream c.ptr (m.step x).trace := by
    obtain ⟨evs, hevs⟩ := hturns.before
    rw [← hc.trace, ← hc'.trace, ← hevs, stream, stream, List.flatMap_append]
    exact List.prefix_append ..
  have hmss' : c'.tcb.MssFits := by
    unfold TCB.MssFits
    rw [hopts]
    exact hmss
  refine ⟨⟨h.wellFormed.step x, hmade, ⟨c', hc', hturns.ptr, hiss, hmss', hshape',
    hturns.quoting hmss hquoting⟩, h.syn.trans hstream, fun ev hev => ?_⟩, hstream⟩
  rw [← hc'.trace] at hev
  rcases hgrows.mem hev with hold | hnew
  · exact h.numbers ev (hc.trace ▸ hold)
  · exact hnew

omit [ICongestionControl σ] in
/-- Behind the SYN. -/
theorem stream_eq (h : m.Sends p iss) : stream p m.trace = none :: (stream p m.trace).drop 1 := by
  obtain ⟨rest, hrest⟩ := h.syn
  rw [← hrest]
  rfl

omit [ICongestionControl σ] in
/-- **Whatever was sent brings a part of the stream.** -/
theorem brings (h : m.Sends p iss) {path : SendPath} {seg : TCPSegment}
    (hsent : .sent p path seg ∈ m.trace) : seg.Brings iss ((stream p m.trace).drop 1) := by
  refine ⟨?_, h.numbers _ hsent path seg rfl⟩
  obtain ⟨c, hc, rfl, rfl, -, -, hquoting⟩ := h.quoting
  rw [← h.stream_eq, ← hc.trace]
  exact hquoting.sent path seg (hc.trace ▸ hsent)

end Sends

/-- The tuple of a connection stays. -/
theorem step_tTuple (hwf : m.WellFormed) (hmade : m.Made) (x : Input σ) {q : Ptr} {u u' : TCB σ}
    (hu : m.heap q = some u) (hu' : (m.step x).heap q = some u') : u'.tTuple = u.tTuple := by
  obtain ⟨hall, -⟩ := unfolds_step hwf hmade x
  have hc : m.Remembers ⟨q, u, m.trace⟩ := ⟨hwf.fresh q u hu, rfl, fun t ht => by
    rw [hu] at ht
    exact (Option.some.inj ht).symm⟩
  obtain ⟨c', hc', hturns⟩ := hall.advances _ hc
  have hptr : c'.ptr = q := hturns.ptr
  subst hptr
  rw [hc'.tcb u' hu']
  exact hturns.tTuple

/-- What is gone does not come back. -/
theorem step_heap_none (hwf : m.WellFormed) {q : Ptr} (hold : q < m.nextAddr)
    (hq : m.heap q = none) (x : Input σ) : (m.step x).heap q = none := by
  cases hq' : (m.step x).heap q with
  | none => rfl
  | some u =>
    have hbypass := Bypasses.step (q := q) (x := x) hwf
      (fun _ _ _ _ t ht => by rw [hq] at ht; cases ht) fun _ _ _ _ _ => Nat.ne_of_lt hold
    rcases hbypass.persists u hq' with ⟨t, ht, -⟩ | ⟨hle, -⟩
    · rw [hq] at ht
      cases ht
    · exact absurd hold (Nat.not_lt.mpr hle)

end TCPConnectionManager

/-! ## The two hosts -/

/-- A host that sends, and one that receives. -/
structure TwoHosts (σ : Type) where
  sender : TCPConnectionManager σ
  receiver : TCPConnectionManager σ

/-- An entry into one of the two. -/
inductive HostInput (σ : Type)
  | sender (x : Input σ)
  | receiver (x : Input σ)

namespace TwoHosts
variable [ICongestionControl σ]

def step (l : TwoHosts σ) : HostInput σ → TwoHosts σ
  | .sender x => { l with sender := l.sender.step x }
  | .receiver x => { l with receiver := l.receiver.step x }

/-- **Nothing is invented**: what comes to the receiver from the other end of `k`, for the port
of `k`, was sent by the connection `p` of the sender.  A RST may be anything. -/
def Genuine (p : Ptr) (k : TCPTuple) (l : TwoHosts σ) : HostInput σ → Prop
  | .sender _ => True
  | .receiver x => ∀ seg, x.seg = some seg → seg.isRst = false → seg.srcAddr = k.remoteIp →
      seg.srcPort = k.remotePort → seg.dstPort = k.localPort →
      ∃ path, .sent p path seg ∈ l.sender.trace

variable {l : TwoHosts σ} {p : Ptr} {k : TCPTuple} {iss : BitVec 32} {base : Ptr → List UInt8}
  {x : HostInput σ} {xs : List (HostInput σ)}

/-- **What holds at every moment** of the stream from `p` to the connections under `k`. -/
structure Joined (p : Ptr) (k : TCPTuple) (iss : BitVec 32) (base : Ptr → List UInt8)
    (l : TwoHosts σ) : Prop where
  sends : l.sender.Sends p iss
  wellFormed : l.receiver.WellFormed
  made : l.receiver.Made
  unborn : ∀ q, l.receiver.nextAddr ≤ q → base q = []
  hears : ∀ q u, l.receiver.heap q = some u → u.tTuple = k →
    ∃ room out, l.receiver.Hears q iss ((stream p l.sender.trace).drop 1) room (base q) out

namespace Joined

/-- The receiver's connections under `k`, behind an entry. -/
theorem hears_receiver (h : l.Joined p k iss base) {x : Input σ}
    (hgenuine : l.Genuine p k (.receiver x))
    (hlen : (stream p l.sender.trace).length ≤ 2 ^ 31) {q : Ptr} {u : TCB σ}
    (hu : (l.receiver.step x).heap q = some u) (hk : u.tTuple = k) :
    ∃ room out, (l.receiver.step x).Hears q iss ((stream p l.sender.trace).drop 1) room
      (base q) out := by
  have hwf' := h.wellFormed.step x
  have hshort : ((stream p l.sender.trace).drop 1).length < 2 ^ 31 := by
    rw [List.length_drop]
    omega
  rcases Nat.lt_or_ge q l.receiver.nextAddr with hold | hnew
  · cases hq : l.receiver.heap q with
    | none =>
      rw [TCPConnectionManager.step_heap_none h.wellFormed hold hq x] at hu
      cases hu
    | some t =>
      have ht : t.tTuple = k :=
        (TCPConnectionManager.step_tTuple h.wellFormed h.made x hq hu).symm.trans hk
      obtain ⟨room, out, hout⟩ := h.hears q t hq ht
      obtain ⟨out', hout'⟩ := hout.step (x := x) h.wellFormed hshort fun seg hx hrst hfind => by
        obtain ⟨t', ht', htuple, -⟩ := h.wellFormed.find hfind
        rw [hq] at ht'
        cases ht'
        have hseg : seg.tuple = k := htuple.symm.trans ht
        obtain ⟨path, hsent⟩ := hgenuine seg hx hrst (congrArg TCPTuple.remoteIp hseg)
          (congrArg TCPTuple.remotePort hseg) (congrArg TCPTuple.localPort hseg)
        exact h.sends.brings hsent
      exact ⟨room, out', hout'⟩
  · rw [h.unborn q hnew]
    by_cases hborn : ∃ seg, x.seg = some seg ∧ seg.isRst = false ∧
        l.receiver.findTcb seg.tuple = none ∧ l.receiver.findListeningTcb seg.dstPort ≠ none ∧
        q = l.receiver.nextAddr
    · obtain ⟨seg, hx, hrst, hfind, hlisten, rfl⟩ := hborn
      obtain ⟨hsyn, htuple, hhears⟩ := TCPConnectionManager.Hears.born
        (S := (stream p l.sender.trace).drop 1) h.wellFormed h.made hx hrst hfind hlisten hu
      have hseg := htuple.symm.trans hk
      obtain ⟨path, hsent⟩ := hgenuine seg hx hrst (congrArg TCPTuple.remoteIp hseg)
        (congrArg TCPTuple.remotePort hseg) (congrArg TCPTuple.localPort hseg)
      rw [(h.sends.brings hsent).syn hsyn] at hhears
      exact ⟨_, [], hhears⟩
    · have hbypass := TCPConnectionManager.Bypasses.step (q := q) (x := x) h.wellFormed
        (fun seg _ _ hfind t ht => absurd (h.wellFormed.fresh q t ht) (Nat.not_lt.mpr hnew))
        fun seg hx hrst hfind hlisten heq => hborn ⟨seg, hx, hrst, hfind, hlisten, heq⟩
      exact ⟨_, [], .of_born h.wellFormed h.made hnew hwf' hbypass hu⟩

/-- **An entry into either host.** -/
theorem step (h : l.Joined p k iss base) (hgenuine : l.Genuine p k x)
    (hlen : (stream p l.sender.trace).length ≤ 2 ^ 31) : (l.step x).Joined p k iss base := by
  cases x with
  | sender x =>
    obtain ⟨hsends, hgrows⟩ := h.sends.step x
    refine ⟨hsends, h.wellFormed, h.made, h.unborn, fun q u hu hk => ?_⟩
    obtain ⟨room, out, hout⟩ := h.hears q u hu hk
    exact ⟨room, out, hout.extend (hgrows.drop 1)⟩
  | receiver x =>
    refine ⟨h.sends, h.wellFormed.step x,
      (TCPConnectionManager.unfolds_step h.wellFormed h.made x).2, fun q hq => ?_,
      fun q u hu hk => h.hears_receiver hgenuine hlen hu hk⟩
    exact h.unborn q ((TCPConnectionManager.nextAddr_le_step h.wellFormed x).trans hq)

/-- The sender goes on, and its stream grows. -/
theorem sends_run (h : l.sender.Sends p iss) (xs : List (HostInput σ)) :
    (GuardedRun.run TwoHosts.step l xs).sender.Sends p iss ∧
      stream p l.sender.trace <+: stream p (GuardedRun.run TwoHosts.step l xs).sender.trace := by
  induction xs generalizing l with
  | nil => exact ⟨h, List.prefix_refl _⟩
  | cons x xs ih =>
    cases x with
    | sender x =>
      obtain ⟨hsends, hgrows⟩ := h.step x
      obtain ⟨hrun, hrest⟩ := ih (l := l.step (.sender x)) hsends
      exact ⟨hrun, hgrows.trans hrest⟩
    | receiver x => exact ih (l := l.step (.receiver x)) h

/-- **Any order of entries**, as long as no more than `2 ^ 31` numbers are used. -/
theorem run (h : l.Joined p k iss base)
    (hgenuine : GuardedRun.Meets TwoHosts.step (Genuine p k) l xs)
    (hlen : (stream p (GuardedRun.run TwoHosts.step l xs).sender.trace).length ≤ 2 ^ 31) :
    (GuardedRun.run TwoHosts.step l xs).Joined p k iss base := by
  induction xs generalizing l with
  | nil => exact h
  | cons x xs ih =>
    have hnow := (sends_run h.sends (x :: xs)).2.length_le.trans hlen
    exact ih (h.step hgenuine.1 hnow) hgenuine.2 hlen

end Joined

/-- A segment of the caller. -/
def callerSegment (seqNum ackNum : BitVec 32) (flags : UInt8) (window : UInt16)
    (data : List UInt8) : TCPSegment :=
  ⟨0x0a000001, 0x0a000002, 5000, 80, seqNum, ackNum, flags, window, data⟩

/-- Five bytes and a FIN in three segments: the second comes first, then the first, twice, and in
between the SYN once more. -/
def shuffled : List (HostInput (TCPCubic Unit)) :=
  [.receiver ⟨.silent 1 200, .segment (callerSegment 100 0 TCPFlags.syn 65535 [])⟩,
    .sender ⟨.silent 2 0, .segment ⟨0x0a000002, 0x0a000001, 80, 5000, 200, 101,
      TCPFlags.syn ||| TCPFlags.ack, 65535, []⟩⟩,
    .receiver ⟨.silent 3 0, .segment (callerSegment 101 201 TCPFlags.ack 16 [])⟩,
    .sender ⟨.silent 4 0, .call (.send 0 [1, 2, 3])⟩,
    .sender ⟨.silent 4 0, .call (.send 0 [4, 5])⟩, .sender ⟨.silent 4 0, .call (.close 0)⟩,
    .receiver ⟨.silent 5 0,
      .segment (callerSegment 104 201 (TCPFlags.ack ||| TCPFlags.psh) 16 [4, 5])⟩,
    .receiver ⟨.silent 6 0, .segment (callerSegment 100 0 TCPFlags.syn 65535 [])⟩,
    .receiver ⟨.silent 6 0,
      .segment (callerSegment 101 201 (TCPFlags.ack ||| TCPFlags.psh) 16 [1, 2, 3])⟩,
    .receiver ⟨.silent 7 0,
      .segment (callerSegment 101 201 (TCPFlags.ack ||| TCPFlags.psh) 16 [1, 2, 3])⟩,
    .receiver ⟨.silent 8 0, .segment (callerSegment 106 201 (TCPFlags.fin ||| TCPFlags.ack) 16 [])⟩]

end TwoHosts
end NeuStack
