import NeuStack.IPv4Layer

/-! # Which datagrams are answered with an ICMP error

A Destination Unreachable or a Time Exceeded must not answer a datagram from or to
certain addresses, a fragment other than the first, or an ICMP message other than an
echo (`Answerable`).  The layer tests the first of these in `should_send_icmp_error`,
and the ICMP handler the last in both of its senders.

The third call of a sender is in `UDPLayer::handle`, and `should_send_icmp_error` is
not asked there.  `suppressed_iff` says that this is all that is wrong.
-/
namespace NeuStack

/-! ## What is asked -/

namespace IPv4Layer

/-- `IPv4Layer::send`: the bytes that go to the device. -/
def send (l : IPv4Layer) (mtu nextId : UInt16) (dst : UInt32) (protocol : UInt8)
    (payload : List UInt8) : Option (List UInt8) :=
  if mtu.toNat < 20 + payload.length then none
  else
    IPv4Builder.build
      { src := l.localIp, dst, protocol, identification := nextId, dontFragment := true, ttl := 64,
        payload } 1500

/-- 224.0.0.0 to 239.255.255.255. -/
def Multicast (addr : UInt32) : Prop :=
  224 ≤ addr.toNat / 16777216 ∧ addr.toNat / 16777216 ≤ 239

/-- **A datagram that an ICMP error may answer.** -/
structure Answerable (mem : Memory) (pkt : IPv4Packet) : Prop where
  source : pkt.srcAddr ≠ 0 ∧ pkt.srcAddr ≠ 0xFFFFFFFF ∧ ¬ Multicast pkt.srcAddr
  destination : pkt.dstAddr ≠ 0xFFFFFFFF ∧ ¬ Multicast pkt.dstAddr
  first : pkt.fragmentOffset = 0
  echo : pkt.protocol = IPProtocol.icmp →
    (mem pkt.payload = ICMPType.echoRequest ∨ mem pkt.payload = ICMPType.echoReply)

/-- A Destination Unreachable or a Time Exceeded. -/
def IsErrorMessage (protocol : UInt8) (payload : List UInt8) : Prop :=
  protocol = IPProtocol.icmp ∧
    (payload.head? = some ICMPType.destUnreachable ∨ payload.head? = some ICMPType.timeExceeded)

/-- **Errors are suppressed**: on receiving the bytes, an error is transmitted only if they
are an answerable datagram. -/
def Suppressed (l : IPv4Layer) (mtu : UInt16) (mem : Memory) (len : Nat) : Prop :=
  ∀ dst protocol payload, .send dst protocol payload ∈ (l.onReceive mem len).value →
    IsErrorMessage protocol payload → (∃ nextId, (l.send mtu nextId dst protocol payload).isSome) →
    ∃ pkt, (IPv4Parser.parse mem len).value = some pkt ∧ Answerable mem pkt

/-- A datagram for a UDP port that is not bound, in a layer that has an ICMP handler. -/
structure UnboundPort (l : IPv4Layer) (mem : Memory) (pkt : IPv4Packet) : Prop where
  addressed : pkt.dstAddr = l.localIp ∨ pkt.dstAddr = 0xFFFFFFFF
  alive : pkt.ttl ≠ 0
  unbound : ∃ sockets datagram, l.getHandler pkt.protocol = some (.udp sockets) ∧
    (UDPLayer.parse mem pkt).value = some datagram ∧ datagram.dstPort ∉ sockets
  answered : l.hasIcmpHandler = true

/-- The length of the datagram that answers it: two headers, the quoted header, and eight
bytes of payload. -/
def errorLength (pkt : IPv4Packet) : Nat := 28 + (pkt.ihl.toNat * 4 + min pkt.payloadLength 8)

variable {mem : Memory} {pkt : IPv4Packet} {len : Nat} {l : IPv4Layer}

/-! ## The tests -/

theorem shouldSendIcmpError_iff : shouldSendIcmpError pkt = true ↔
    (pkt.srcAddr ≠ 0 ∧ pkt.srcAddr ≠ 0xFFFFFFFF ∧ ¬ Multicast pkt.srcAddr) ∧
      (pkt.dstAddr ≠ 0xFFFFFFFF ∧ ¬ Multicast pkt.dstAddr) ∧ pkt.fragmentOffset = 0 := by
  rw [shouldSendIcmpError, Bool.not_eq_true', decide_eq_false_iff_not]
  simp only [not_or, Multicast, ne_eq, not_not, and_assoc]

/-- What a datagram must be for a sender of errors. -/
theorem mayAnswer_iff : (ICMPHandler.mayAnswer mem pkt).value = true ↔
    (pkt.protocol = IPProtocol.icmp → 4 ≤ pkt.payloadLength ∧
      (mem pkt.payload = ICMPType.echoRequest ∨ mem pkt.payload = ICMPType.echoReply)) := by
  simp only [ICMPHandler.mayAnswer, Scan.value_ite, Scan.value_bind, Scan.value_pure]
  split
  · rename_i hother
    exact iff_of_true rfl fun hicmp => absurd hicmp hother
  rename_i hicmp
  split
  · rename_i hshort
    refine iff_of_false Bool.false_ne_true fun h => ?_
    have hlong := (h (not_not.mp hicmp)).1
    omega
  · rename_i hlong
    rw [decide_eq_true_iff, Scan.value_read]
    exact ⟨fun h _ => ⟨Nat.not_lt.mp hlong, h⟩, fun h => (h (not_not.mp hicmp)).2⟩

theorem answerable (hshould : shouldSendIcmpError pkt = true)
    (hmay : (ICMPHandler.mayAnswer mem pkt).value = true) : Answerable mem pkt := by
  obtain ⟨hsource, hdestination, hfirst⟩ := shouldSendIcmpError_iff.mp hshould
  exact ⟨hsource, hdestination, hfirst, fun hicmp => (mayAnswer_iff.mp hmay hicmp).2⟩

/-! ## The senders -/

/-- The error that quotes a datagram. -/
def errorMessage (mem : Memory) (type code : UInt8) (pkt : IPv4Packet) : List UInt8 :=
  ICMPHandler.finished type code (NetworkOrder.store16 0 ++ NetworkOrder.store16 0 ++
    mem.slice pkt.rawData (pkt.ihl.toNat * 4) ++ mem.slice pkt.payload (min pkt.payloadLength 8))

theorem head?_errorMessage (type code : UInt8) :
    (errorMessage mem type code pkt).head? = some type := rfl

theorem length_errorMessage (type code : UInt8) :
    20 + (errorMessage mem type code pkt).length = errorLength pkt := by
  simp only [errorMessage, ICMPHandler.finished, ICMPHandler.message, List.length_append,
    List.length_cons, List.length_nil, NetworkOrder.length_store16, Memory.length_slice, errorLength]
  omega

/-- A quoted header has at most fifteen words, so the message fits its buffer. -/
theorem value_sendError (hihl : pkt.ihl.toNat ≤ 15) (type code : UInt8) :
    (ICMPHandler.sendError mem type code 0 pkt).value =
      [.send pkt.srcAddr IPProtocol.icmp (errorMessage mem type code pkt)] := by
  simp only [ICMPHandler.sendError, Scan.value_ite, Scan.value_bind, Scan.value_pure]
  rw [if_neg (by omega)]
  rfl

theorem value_sendDestUnreachable (hihl : pkt.ihl.toNat ≤ 15) (code : UInt8) :
    (ICMPHandler.sendDestUnreachable mem code pkt).value =
      if (ICMPHandler.mayAnswer mem pkt).value = true then
        [.send pkt.srcAddr IPProtocol.icmp (errorMessage mem ICMPType.destUnreachable code pkt)]
      else [] := by
  rw [← value_sendError hihl]
  simp only [ICMPHandler.sendDestUnreachable, Scan.value_ite, Scan.value_bind, Scan.value_pure]

theorem ihl_le (h : (IPv4Parser.parse mem len).value = some pkt) : pkt.ihl.toNat ≤ 15 := by
  obtain ⟨-, rfl⟩ := IPv4Parser.parse_eq_some.mp h
  show (mem 0 &&& 0x0F).toNat ≤ 15
  rw [UInt8.toNat_and]
  exact Nat.and_le_right

/-- What the ICMP handler sends is an echo reply. -/
theorem not_error_of_echo {dst : UInt32} {protocol : UInt8} {payload : List UInt8}
    (h : .send dst protocol payload ∈ (ICMPHandler.handle mem pkt).value) :
    ¬ IsErrorMessage protocol payload := by
  simp only [ICMPHandler.handle, Scan.value_ite, Scan.value_bind, Scan.value_pure] at h
  split at h
  · exact nomatch h
  split at h
  · exact nomatch h
  split at h
  · simp only [ICMPHandler.handleEchoRequest, Scan.value_ite, Scan.value_bind, Scan.value_pure] at h
    split at h
    · exact nomatch h
    split at h
    · exact nomatch h
    · cases List.mem_singleton.mp h
      rintro ⟨-, hunreachable | hexceeded⟩
      · exact absurd (Option.some.inj hunreachable) (by decide)
      · exact absurd (Option.some.inj hexceeded) (by decide)
  split at h
  · simp only [ICMPHandler.handleEchoReply, Scan.value_ite, Scan.value_bind, Scan.value_pure] at h
    split at h
    · exact nomatch h
    · cases List.mem_singleton.mp h
  · exact nomatch h

/-- What the network can carry. -/
theorem send_isSome (l : IPv4Layer) {mtu nextId : UInt16} {dst : UInt32} {protocol : UInt8}
    {payload : List UInt8} : (l.send mtu nextId dst protocol payload).isSome = true ↔
      20 + payload.length ≤ mtu.toNat ∧ 20 + payload.length ≤ 1500 := by
  rw [send]
  split
  · rename_i hlong
    refine iff_of_false Bool.false_ne_true fun h => ?_
    omega
  · rename_i hfits
    dsimp only [IPv4Builder.build]
    split
    · refine iff_of_false Bool.false_ne_true fun h => ?_
      omega
    split
    · refine iff_of_false Bool.false_ne_true fun h => ?_
      omega
    · exact iff_of_true rfl ⟨by omega, by omega⟩

/-! ## The dispatch -/

/-- Where errors come from: the layer itself, which asks, and the UDP layer, which does
not. -/
theorem error_cases (hparse : (IPv4Parser.parse mem len).value = some pkt) {dst : UInt32}
    {protocol : UInt8} {payload : List UInt8}
    (hmem : .send dst protocol payload ∈ (l.dispatch mem pkt).value)
    (herror : IsErrorMessage protocol payload) :
    (ICMPHandler.mayAnswer mem pkt).value = true ∧
      (∃ type code, payload = errorMessage mem type code pkt) ∧
      (shouldSendIcmpError pkt = true ∨ UnboundPort l mem pkt) := by
  have hihl := ihl_le hparse
  unfold dispatch at hmem
  split at hmem
  · exact nomatch hmem
  rename_i hours
  rw [not_and_or, not_not, not_not] at hours
  split at hmem
  · split at hmem
    · rename_i hasked
      obtain ⟨hshould, -⟩ := (Bool.and_eq_true _ _).mp hasked
      simp only [ICMPHandler.sendTimeExceeded, Scan.value_bind, Scan.value_ite, Scan.value_pure,
        value_sendError hihl] at hmem
      split at hmem
      · rename_i hmay
        cases List.mem_singleton.mp hmem
        exact ⟨hmay, ⟨_, _, rfl⟩, Or.inl hshould⟩
      · exact nomatch hmem
    · exact nomatch hmem
  rename_i halive
  cases hhandler : l.getHandler pkt.protocol with
  | none =>
    rw [hhandler] at hmem
    dsimp only at hmem
    split at hmem
    · rename_i hasked
      obtain ⟨hshould, -⟩ := (Bool.and_eq_true _ _).mp hasked
      rw [value_sendDestUnreachable hihl] at hmem
      split at hmem
      · rename_i hmay
        cases List.mem_singleton.mp hmem
        exact ⟨hmay, ⟨_, _, rfl⟩, Or.inl hshould⟩
      · exact nomatch hmem
    · exact nomatch hmem
  | some handler =>
    rw [hhandler] at hmem
    simp only [Scan.value_bind, Scan.value_pure, List.mem_cons, reduceCtorEq, false_or] at hmem
    cases handler with
    | icmp => exact absurd herror (not_error_of_echo hmem)
    | tcp =>
      obtain ⟨seg, -, heq⟩ := List.mem_map.mp hmem
      cases heq
    | other id => exact nomatch hmem
    | udp sockets =>
      simp only [handle, Scan.value_bind, Scan.value_ite, Scan.value_pure] at hmem
      split at hmem
      · exact nomatch hmem
      rename_i hsome
      split at hmem
      · obtain ⟨d, -, heq⟩ := List.mem_map.mp hmem
        cases heq
      rename_i hunbound
      split at hmem
      · rename_i hanswered
        rw [value_sendDestUnreachable hihl] at hmem
        split at hmem
        · rename_i hmay
          cases List.mem_singleton.mp hmem
          obtain ⟨d, hd⟩ := Option.ne_none_iff_exists'.mp (mt Option.isNone_iff_eq_none.mpr hsome)
          refine ⟨hmay, ⟨_, _, rfl⟩, Or.inr ⟨hours, halive, ⟨sockets, d, hhandler, hd, ?_⟩, hanswered⟩⟩
          rw [hd, Option.any_some, List.contains_iff_mem] at hunbound
          exact hunbound
        · exact nomatch hmem
      · exact nomatch hmem

/-- A datagram for an unbound port is answered. -/
theorem unboundPort_answered (hparse : (IPv4Parser.parse mem len).value = some pkt)
    (h : UnboundPort l mem pkt) :
    .send pkt.srcAddr IPProtocol.icmp (errorMessage mem ICMPType.destUnreachable 3 pkt) ∈
      (l.dispatch mem pkt).value := by
  obtain ⟨haddressed, halive, ⟨sockets, d, hhandler, hd, hunbound⟩, hanswered⟩ := h
  have hours : ¬ (pkt.dstAddr ≠ l.localIp ∧ pkt.dstAddr ≠ 0xFFFFFFFF) := by
    rintro ⟨hlocal, hbroadcast⟩
    exact haddressed.elim hlocal hbroadcast
  -- the ICMP handler has its own protocol, so this one is another
  have hmay : (ICMPHandler.mayAnswer mem pkt).value = true := by
    refine mayAnswer_iff.mpr fun hicmp => ?_
    rw [hasIcmpHandler, ← hicmp, hhandler] at hanswered
    exact absurd (eq_of_beq hanswered) nofun
  rw [dispatch, if_neg hours, if_neg halive, hhandler]
  refine List.mem_cons_of_mem _ ?_
  show _ ∈ (l.handle mem pkt (.udp sockets)).value
  simp only [handle, Scan.value_bind, Scan.value_ite, Scan.value_pure]
  rw [hd, if_neg (show ¬ (some d).isNone = true from Bool.false_ne_true), if_neg,
    if_pos hanswered, value_sendDestUnreachable (ihl_le hparse), if_pos hmay]
  · exact List.mem_singleton.mpr rfl
  · rw [Option.any_some, List.contains_iff_mem]
    exact hunbound

/-- **Errors are suppressed, except for unbound ports**: in every layer and for all bytes
they are, exactly if a datagram for an unbound port passes `should_send_icmp_error`, or
the answer does not fit the MTU. -/
theorem suppressed_iff (l : IPv4Layer) (mtu : UInt16) (mem : Memory) (len : Nat) :
    Suppressed l mtu mem len ↔
      ∀ pkt, (IPv4Parser.parse mem len).value = some pkt → UnboundPort l mem pkt →
        errorLength pkt ≤ mtu.toNat → shouldSendIcmpError pkt = true := by
  constructor
  · intro h pkt hparse hport hfits
    have hmem := unboundPort_answered hparse hport
    have hihl := ihl_le hparse
    have hlength : 20 + (errorMessage mem ICMPType.destUnreachable 3 pkt).length =
      errorLength pkt := length_errorMessage ..
    have hvalue : (l.onReceive mem len).value = (l.dispatch mem pkt).value := by
      rw [onReceive, Scan.value_bind, hparse]
    obtain ⟨pkt', hparse', hanswerable⟩ := h _ _ _ (hvalue ▸ hmem)
      ⟨rfl, Or.inl (head?_errorMessage _ _)⟩
      ⟨0, (send_isSome l).mpr ⟨by omega, by rw [hlength, errorLength]; omega⟩⟩
    obtain rfl := Option.some.inj (hparse.symm.trans hparse')
    exact shouldSendIcmpError_iff.mpr ⟨hanswerable.source, hanswerable.destination, hanswerable.first⟩
  · intro h dst protocol payload hmem herror hsent
    rw [onReceive, Scan.value_bind] at hmem
    cases hparse : (IPv4Parser.parse mem len).value with
    | none =>
      rw [hparse] at hmem
      exact nomatch hmem
    | some pkt =>
      rw [hparse] at hmem
      obtain ⟨hmay, ⟨type, code, rfl⟩, hshould | hport⟩ := error_cases hparse hmem herror
      · exact ⟨pkt, rfl, answerable hshould hmay⟩
      · obtain ⟨nextId, hsent⟩ := hsent
        have hfits := ((send_isSome l).mp hsent).1
        rw [length_errorMessage] at hfits
        exact ⟨pkt, rfl, answerable (h pkt hparse hport hfits) hmay⟩

/-- An empty UDP datagram from 10.0.0.2 to port 9 of all hosts. -/
def toAllHosts : Memory := .ofList [0x45, 0, 0, 28, 0, 0, 0, 0, 64, 17, 0x70, 0xD0,
  10, 0, 0, 2, 255, 255, 255, 255, 0x30, 0x39, 0, 9, 0, 8, 0, 0]

/-- A layer with UDP and ICMP answers it with a Port Unreachable. -/
theorem toAllHosts_answered :
    ¬ Suppressed { localIp := 0x0A000001, handlers := [(1, .icmp), (17, .udp [])] } 1500
      toAllHosts 28 := by
  intro h
  obtain ⟨pkt, hparse, hanswerable⟩ := h 0x0A000002 1
    (errorMessage toAllHosts 3 3 (IPv4Parser.fields toAllHosts 28).value) (by decide +kernel)
    ⟨rfl, Or.inl rfl⟩ ⟨0, by decide +kernel⟩
  obtain ⟨-, rfl⟩ := IPv4Parser.parse_eq_some.mp hparse
  exact hanswerable.destination.1 (by decide +kernel)

end IPv4Layer
end NeuStack
