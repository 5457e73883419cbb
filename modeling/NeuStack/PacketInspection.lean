import NeuStack.FirewallRun
import NeuStack.PacketViews

/-! # From bytes to a verdict

Two results about `inspect` as a whole.  Together with the network layer, it stays
inside the bytes it is given exactly if `parse_packet` does, or is not called
(`within_iff`).  And its two overloads do the same with a datagram exactly if
their parsing routines see the same of it (`interchangeable_iff`).
-/
namespace NeuStack

/-- Where nothing depends on the floating-point part. -/
instance : FirewallFloat Unit where
  zero := ()
  average _ _ := ()
  toUInt32 _ := 0
  less _ _ := false

namespace FirewallEngine
variable {φ : Type} [FirewallFloat φ] {mem : Memory} {len : Nat} {pkt : IPv4Packet}

/-! ## Staying inside the packet -/

/-- `inspect` calls `parse_packet`: the firewall is on, or a detector is there to
count, and an event can be had. -/
def Parses (e : FirewallEngine φ) : Prop :=
  (e.config.enabled = true ∨ e.ai.isSome = true) ∧ 0 < e.eventPool.available

omit [FirewallFloat φ] in
theorem acquire_of_parses {e : FirewallEngine φ} (h : e.Parses) :
    e.eventPool.acquire = some ⟨e.eventPool.available - 1⟩ := if_pos h.2

theorem within_inspect_of_parses {e : FirewallEngine φ} (h : e.Parses) (mem : Memory) (len : Nat)
    (stampUs nowUs : UInt64) : (e.inspect mem len stampUs nowUs).Within len ↔
      (parsePacket mem len stampUs).Within len := by
  have hacquire := acquire_of_parses h
  rw [inspect, hacquire]
  cases henabled : e.config.enabled with
  | true =>
    rw [if_neg (show ¬ (!true) = true by decide), Scan.within_bind]
    refine and_iff_left ?_
    cases (parsePacket mem len stampUs).value <;> exact Scan.within_pure _
  | false =>
    rw [if_pos (show (!false) = true by decide)]
    obtain ⟨ai, hai⟩ : ∃ ai, e.ai = some ai := by
      refine Option.isSome_iff_exists.mp (h.1.resolve_left ?_)
      rw [henabled]
      exact Bool.false_ne_true
    simp only [hai]
    exact (Scan.within_bind ..).trans (and_iff_left (Scan.within_pure _))

theorem within_inspect_of_not_parses {e : FirewallEngine φ} (h : ¬ e.Parses) (mem : Memory)
    (len : Nat) (stampUs nowUs : UInt64) : (e.inspect mem len stampUs nowUs).Within len := by
  rw [inspect]
  cases henabled : e.config.enabled with
  | true =>
    have hnone : e.eventPool.acquire = none := if_neg fun hfree => h ⟨Or.inl henabled, hfree⟩
    rw [if_neg (show ¬ (!true) = true by decide), hnone]
    exact Scan.within_pure _
  | false =>
    rw [if_pos (show (!false) = true by decide)]
    cases hai : e.ai with
    | none => exact Scan.within_pure _
    | some ai =>
      have hnone : e.eventPool.acquire = none :=
        if_neg fun hfree => h ⟨Or.inr (by rw [hai]; rfl), hfree⟩
      simp only [hnone]
      exact Scan.within_pure _

/-- **Firewall and network layer stay inside the packet, and compute no negative
length, exactly if the firewall does not parse a packet whose total length is
shorter than its header.** -/
theorem within_iff (e : FirewallEngine φ) (l : IPv4Layer) (mem : Memory) (len : Nat)
    (stampUs nowUs : UInt64) :
    (e.inspect mem len stampUs nowUs).Within len ∧ (l.onReceive mem len).Within len ↔
      ¬ (e.Parses ∧ ShortTotal mem len) := by
  rw [and_iff_left (l.within_onReceive mem len)]
  by_cases hparses : e.Parses
  · rw [within_inspect_of_parses hparses, within_parsePacket]
    exact not_congr (and_iff_right hparses).symm
  · exact iff_of_true (within_inspect_of_not_parses hparses mem len stampUs nowUs)
      fun h => hparses h.1

/-- A header for TCP that says the datagram has no length. -/
def zeroTotal : Memory := .ofList [0x45, 0, 0, 0, 0, 0, 0, 0, 64, 6, 0x66, 0xF6,
  10, 0, 0, 2, 10, 0, 0, 1]

/-- A new firewall reads the ports and flags of `zeroTotal` from behind its end. -/
theorem zeroTotal_outside : ¬ (((create { aiThreshold := () } 0 false).inspect zeroTotal 20 0 0).Within
      20 ∧ (IPv4Layer.onReceive { localIp := 0x0A000001 } zeroTotal 20).Within 20) := by
  rintro ⟨⟨hreads, -⟩, -⟩
  have hread : 33 ∈ ((create { aiThreshold := () } 0 false).inspect zeroTotal 20 0 0).reads := by
    decide +kernel
  exact absurd (hreads 33 hread) (by decide)

/-! ## The two overloads -/

/-- Both overloads see the same event, give the same verdict, and leave the same
engine: statistics, metrics of the detector and all. -/
structure Interchangeable (e : FirewallEngine φ) (mem : Memory) (len : Nat) (pkt : IPv4Packet)
    (stampUs nowUs : UInt64) : Prop where
  event : (parsePacket mem len stampUs).value = some (fillEventFromIpv4 mem pkt stampUs).value
  verdict : (e.inspect mem len stampUs nowUs).value.verdict =
    (e.inspectPacket mem pkt stampUs nowUs).value.verdict
  engine : (e.inspect mem len stampUs nowUs).value.engine =
    (e.inspectPacket mem pkt stampUs nowUs).value.engine

/-- After the event is filled, the overloads do not differ. -/
theorem inspect_eq_of_event {stampUs : UInt64} (h : (parsePacket mem len stampUs).value =
      some (fillEventFromIpv4 mem pkt stampUs).value) (e : FirewallEngine φ) (nowUs : UInt64) :
    (e.inspect mem len stampUs nowUs).value = (e.inspectPacket mem pkt stampUs nowUs).value := by
  cases henabled : e.config.enabled with
  | false => rw [inspect_disabled henabled, inspectPacket_disabled henabled, h]
  | true =>
    cases hpool : e.eventPool.acquire with
    | none =>
      rw [inspect, inspectPacket, henabled, hpool]
    | some pool => rw [inspect_enabled henabled hpool, inspectPacket_enabled henabled hpool, h]

/-- **The overloads are interchangeable exactly on the datagrams the two routines
see alike**, whatever the state of the engine. -/
theorem interchangeable_iff (hparse : (IPv4Parser.parse mem len).value = some pkt)
    (e : FirewallEngine φ) (stampUs nowUs : UInt64) :
    e.Interchangeable mem len pkt stampUs nowUs ↔ SeenAlike mem pkt := by
  rw [← alike_iff hparse stampUs]
  constructor
  · exact fun h => h.event
  · intro hevent
    have heq := inspect_eq_of_event hevent e nowUs
    exact ⟨hevent, by rw [heq], by rw [heq]⟩

theorem interchangeable_syn : ∃ pkt, (IPv4Parser.parse (synDatagram 6 0xCE) 40).value = some pkt ∧
    ((create { aiThreshold := () } 0 false).Interchangeable (synDatagram 6 0xCE) 40 pkt 7 7 ↔
      SeenAlike (synDatagram 6 0xCE) pkt) :=
  ⟨_, rfl, interchangeable_iff rfl _ 7 7⟩

/-- A bare SYN has no payload; the second overload counts its header as one. -/
theorem not_interchangeable_syn : ∃ pkt,
    (IPv4Parser.parse (synDatagram 6 0xCE) 40).value = some pkt ∧
      ¬ (create { aiThreshold := () } 0 false).Interchangeable (synDatagram 6 0xCE) 40 pkt 7 7 := by
  refine ⟨_, rfl, fun h => ?_⟩
  have hfirst : (parsePacket (synDatagram 6 0xCE) 40 7).value.map (·.payloadLen) = some 0 := by
    decide +kernel
  have hsecond : (fillEventFromIpv4 (synDatagram 6 0xCE)
      (IPv4Parser.fields (synDatagram 6 0xCE) 40).value 7).value.payloadLen = 20 := by
    decide +kernel
  rw [h.event, Option.map_some, hsecond] at hfirst
  exact absurd hfirst (by decide)

end FirewallEngine

end NeuStack
