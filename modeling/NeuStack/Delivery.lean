import NeuStack.IPv4Layer

/-! # Delivery of datagrams

What `IPv4Layer::on_receive` owes its handlers, stated on the bytes (`Deliverable`),
and what it does.  It parses the fragment fields, and its sender of ICMP errors
looks at them, but the dispatch does not: a fragment is handed up like a whole
datagram.  `exactDelivery_iff` says that this is all that is wrong.
-/
namespace NeuStack
open NetworkOrder

/-! ## What is asked -/

/-- The bytes are a datagram the host may take: well-formed, for it or for all, alive,
and of a protocol it knows. -/
structure Admissible (l : IPv4Layer) (mem : Memory) (len : Nat) : Prop where
  valid : IPv4Valid mem len
  addressed : (net32 mem 16).value = l.localIp ∨ (net32 mem 16).value = 0xFFFFFFFF
  alive : mem 8 ≠ 0
  registered : (l.getHandler (mem 9)).isSome = true

/-- More fragments follow, or the bytes are not the first of their datagram. -/
def IsFragment (mem : Memory) : Prop :=
  mem 6 &&& 0x20 ≠ 0 ∨ (net16 mem 6).value &&& 0x1FFF ≠ 0

/-- An admissible datagram that is whole. -/
def Deliverable (l : IPv4Layer) (mem : Memory) (len : Nat) : Prop :=
  Admissible l mem len ∧ ¬ IsFragment mem

/-- The bytes behind the header that belong to the datagram. -/
def datagramPayload (mem : Memory) : List UInt8 :=
  mem.slice (ipHeaderLength mem) (ipTotalLength mem - ipHeaderLength mem)

/-- The handlers that were invoked, each with its payload. -/
def invocations (mem : Memory) (events : List NetEvent) : List (ProtocolHandler × List UInt8) :=
  events.filterMap fun
    | .invoked handler pkt => some (handler, mem.slice pkt.payload pkt.payloadLength)
    | _ => none

/-- **Exact delivery of one byte string**: a handler is invoked only for a deliverable
datagram, and then it is the registered one, once, and with the payload. -/
structure ExactDelivery (l : IPv4Layer) (mem : Memory) (len : Nat) : Prop where
  only : invocations mem (l.onReceive mem len).value ≠ [] → Deliverable l mem len
  once : ∀ handler, Deliverable l mem len → l.getHandler (mem 9) = some handler →
    invocations mem (l.onReceive mem len).value = [(handler, datagramPayload mem)]

/-! ## What a handler does -/

/-- No handler invokes another. -/
def Quiet (events : List NetEvent) : Prop := ∀ handler pkt, .invoked handler pkt ∉ events

theorem quiet_nil : Quiet [] := fun _ _ h => (nomatch h)

theorem quiet_send (dst : UInt32) (protocol : UInt8) (payload : List UInt8) :
    Quiet [.send dst protocol payload] := by
  rintro handler pkt h
  cases List.mem_singleton.mp h

theorem invocations_quiet {mem : Memory} {events : List NetEvent} (h : Quiet events) :
    invocations mem events = [] := by
  refine List.filterMap_eq_nil_iff.mpr fun ev hev => ?_
  cases ev with
  | invoked handler pkt => exact absurd hev (h handler pkt)
  | send | segment | datagram | echoReply => rfl

variable {mem : Memory} {pkt : IPv4Packet} {len : Nat}

namespace ICMPHandler

theorem quiet_handleEchoRequest : Quiet (handleEchoRequest mem pkt).value := by
  simp only [handleEchoRequest, Scan.value_ite, Scan.value_bind, Scan.value_pure]
  split
  · exact quiet_nil
  split
  · exact quiet_nil
  · exact quiet_send _ _ _

theorem quiet_handleEchoReply : Quiet (handleEchoReply mem pkt).value := by
  simp only [handleEchoReply, Scan.value_ite, Scan.value_bind, Scan.value_pure]
  split
  · exact quiet_nil
  · rintro handler pkt h
    cases List.mem_singleton.mp h

theorem quiet_handle : Quiet (handle mem pkt).value := by
  simp only [handle, Scan.value_ite, Scan.value_bind, Scan.value_pure]
  split
  · exact quiet_nil
  split
  · exact quiet_nil
  split
  · exact quiet_handleEchoRequest
  split
  · exact quiet_handleEchoReply
  · exact quiet_nil

theorem quiet_sendError (type code : UInt8) (extra : UInt32) :
    Quiet (sendError mem type code extra pkt).value := by
  simp only [sendError, Scan.value_ite, Scan.value_bind, Scan.value_pure]
  split
  · exact quiet_nil
  · exact quiet_send _ _ _

theorem quiet_sendDestUnreachable (code : UInt8) : Quiet (sendDestUnreachable mem code pkt).value := by
  simp only [sendDestUnreachable, Scan.value_ite, Scan.value_bind, Scan.value_pure]
  split
  · exact quiet_sendError _ _ _
  · exact quiet_nil

theorem quiet_sendTimeExceeded (code : UInt8) : Quiet (sendTimeExceeded mem code pkt).value := by
  simp only [sendTimeExceeded, Scan.value_ite, Scan.value_bind, Scan.value_pure]
  split
  · exact quiet_sendError _ _ _
  · exact quiet_nil

end ICMPHandler

namespace IPv4Layer

theorem quiet_handle (l : IPv4Layer) (handler : ProtocolHandler) :
    Quiet (l.handle mem pkt handler).value := by
  cases handler with
  | icmp => exact ICMPHandler.quiet_handle
  | tcp =>
    rintro handler pkt' h
    obtain ⟨seg, -, heq⟩ := List.mem_map.mp h
    cases heq
  | udp sockets =>
    simp only [handle, Scan.value_ite, Scan.value_bind, Scan.value_pure]
    split
    · exact quiet_nil
    split
    · rintro handler pkt' h
      obtain ⟨d, -, heq⟩ := List.mem_map.mp h
      cases heq
    split
    · exact ICMPHandler.quiet_sendDestUnreachable 3
    · exact quiet_nil
  | other => exact quiet_nil

/-! ## The dispatch -/

/-- Whatever reaches the dispatch for this host, alive, is handed to its handler. -/
theorem dispatch_known (l : IPv4Layer) {handler : ProtocolHandler}
    (haddr : pkt.dstAddr = l.localIp ∨ pkt.dstAddr = 0xFFFFFFFF) (httl : pkt.ttl ≠ 0)
    (hhandler : l.getHandler pkt.protocol = some handler) :
    invocations mem (l.dispatch mem pkt).value =
      [(handler, mem.slice pkt.payload pkt.payloadLength)] := by
  have hours : ¬ (pkt.dstAddr ≠ l.localIp ∧ pkt.dstAddr ≠ 0xFFFFFFFF) := by
    rintro ⟨hlocal, hbroadcast⟩
    exact haddr.elim hlocal hbroadcast
  rw [dispatch, if_neg hours, if_neg httl, hhandler]
  exact congrArg (_ :: ·) (invocations_quiet (l.quiet_handle handler))

/-- Nothing else is handed to any. -/
theorem dispatch_unknown (l : IPv4Layer)
    (h : ¬ ((pkt.dstAddr = l.localIp ∨ pkt.dstAddr = 0xFFFFFFFF) ∧ pkt.ttl ≠ 0 ∧
      (l.getHandler pkt.protocol).isSome = true)) :
    invocations mem (l.dispatch mem pkt).value = [] := by
  refine invocations_quiet ?_
  by_cases hours : pkt.dstAddr ≠ l.localIp ∧ pkt.dstAddr ≠ 0xFFFFFFFF
  · rw [dispatch, if_pos hours]
    exact quiet_nil
  have haddr : pkt.dstAddr = l.localIp ∨ pkt.dstAddr = 0xFFFFFFFF := by
    rw [not_and_or, not_not, not_not] at hours
    exact hours
  by_cases httl : pkt.ttl = 0
  · rw [dispatch, if_neg hours, if_pos httl]
    split
    · exact ICMPHandler.quiet_sendTimeExceeded 0
    · exact quiet_nil
  · rw [dispatch, if_neg hours, if_neg httl]
    cases hhandler : l.getHandler pkt.protocol with
    | some handler => exact absurd ⟨haddr, httl, by rw [hhandler]; rfl⟩ h
    | none =>
      dsimp only
      split
      · exact ICMPHandler.quiet_sendDestUnreachable 2
      · exact quiet_nil

theorem onReceive_value (l : IPv4Layer) (hparse : (IPv4Parser.parse mem len).value = some pkt) :
    (l.onReceive mem len).value = (l.dispatch mem pkt).value := by
  rw [onReceive, Scan.value_bind, hparse]

/-- **Who is invoked**, fragment or not. -/
theorem invocations_admissible {l : IPv4Layer} (h : Admissible l mem len)
    {handler : ProtocolHandler} (hhandler : l.getHandler (mem 9) = some handler) :
    invocations mem (l.onReceive mem len).value = [(handler, datagramPayload mem)] := by
  have hparse := IPv4Parser.parse_eq_some.mpr ⟨h.valid, rfl⟩
  rw [onReceive_value l hparse, dispatch_known l h.addressed h.alive hhandler,
    h.valid.payloadLength]
  rfl

theorem invocations_inadmissible {l : IPv4Layer} (h : ¬ Admissible l mem len) :
    invocations mem (l.onReceive mem len).value = [] := by
  cases hparse : (IPv4Parser.parse mem len).value with
  | none =>
    rw [onReceive, Scan.value_bind, hparse]
    rfl
  | some pkt =>
    obtain ⟨hvalid, rfl⟩ := IPv4Parser.parse_eq_some.mp hparse
    rw [onReceive_value l hparse]
    refine dispatch_unknown l ?_
    rintro ⟨haddr, httl, hregistered⟩
    exact h ⟨hvalid, haddr, httl, hregistered⟩

/-- **Delivery is exact, except that fragments are delivered.** -/
theorem exactDelivery_iff (l : IPv4Layer) (mem : Memory) (len : Nat) :
    ExactDelivery l mem len ↔ (IsFragment mem → ¬ Admissible l mem len) := by
  constructor
  · intro hexact hfragment hadmissible
    obtain ⟨handler, hhandler⟩ := Option.isSome_iff_exists.mp hadmissible.registered
    have hinvoked := invocations_admissible hadmissible hhandler
    refine (hexact.only ?_).2 hfragment
    rw [hinvoked]
    exact List.cons_ne_nil _ _
  · intro hwhole
    refine ⟨fun hsome => ?_, fun handler hdeliverable hhandler =>
      invocations_admissible hdeliverable.1 hhandler⟩
    have hadmissible : Admissible l mem len := by
      by_contra hno
      exact hsome (invocations_inadmissible hno)
    exact ⟨hadmissible, fun hfragment => hwhole hfragment hadmissible⟩

/-- The first fragment of a datagram for TCP, without any payload. -/
def firstFragment : Memory := .ofList [0x45, 0, 0, 20, 0, 0, 0x20, 0, 64, 6, 0x46, 0xE2,
  10, 0, 0, 2, 10, 0, 0, 1]

/-- The TCP layer is invoked for it. -/
theorem firstFragment_delivered :
    ¬ ExactDelivery { localIp := 0x0A000001, handlers := [(6, .tcp)] } firstFragment 20 := by
  intro hexact
  have hinvoked : invocations firstFragment
      (onReceive { localIp := 0x0A000001, handlers := [(6, .tcp)] } firstFragment 20).value =
        [(.tcp, [])] := by
    decide +kernel
  refine (hexact.only ?_).2 (Or.inl (by decide))
  rw [hinvoked]
  exact List.cons_ne_nil _ _

end IPv4Layer

end NeuStack
