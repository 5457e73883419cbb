import Mathlib.Algebra.GroupWithZero.Nat
import NeuStack.Acknowledge
import NeuStack.Tiling

/-! # The stream a connection sends

The sequence numbers of a connection denote the positions of a stream, which its
events determine: the number of the SYN, then the bytes `send()` took, and a
number without a byte wherever a FIN was sent for the first time.  `numbered` is
how many of them have been used.

Against the stream stand the containers that hold the bytes (`TCB.Tiling`) and
the segments on the wire (`Carries`).  Neither mentions how the stream is cut.
-/
namespace NeuStack

/-- What a sequence number denotes: a byte, or a SYN or FIN. -/
abbrev Slot := Option UInt8

/-! ## The stream -/

/-- What an event adds to the stream of the connection at `p`. -/
def Event.slots (p : Ptr) : Event → List Slot
  | .created q _ => if q = p then [none] else []
  | .accepted q data => if q = p then data.map some else []
  | .sent q .segment seg => if q = p ∧ seg.isFin = true then [none] else []
  | _ => []

/-- How many numbers of the connection at `p` an event uses for the first time. -/
def Event.numbers (p : Ptr) : Event → Nat
  | .created q _ => if q = p then 1 else 0
  | .sent q .segment seg =>
    if q = p then seg.dataLength + (if seg.isFin then 1 else 0) else 0
  | _ => 0

def stream (p : Ptr) (tr : List Event) : List Slot := tr.flatMap (Event.slots p)

/-- The position `snd_nxt` is at. -/
def numbered (p : Ptr) (tr : List Event) : Nat := (tr.map (Event.numbers p)).sum

/-- The bytes an event adds. -/
def Event.bytes (p : Ptr) : Event → List UInt8
  | .accepted q data => if q = p then data else []
  | _ => []

/-- All the bytes `send()` took of the connection at `p`. -/
def acceptedBytes (p : Ptr) (tr : List Event) : List UInt8 := tr.flatMap (Event.bytes p)

/-- What a segment carries under its numbers. -/
def TCPSegment.slots (seg : TCPSegment) : List Slot :=
  (if seg.isSyn then [none] else []) ++ seg.data.map some ++ (if seg.isFin then [none] else [])

/-- **The segment is right**: it is the last one in `tr`, and under each of its numbers
it carries what the number denotes.  Of the positions with its first number, the one
meant is less than half the number space behind `snd_nxt`. -/
def Carries (iss : BitVec 32) (p : Ptr) (tr : List Event) (seg : TCPSegment) : Prop :=
  ∃ s, s ≤ numbered p tr ∧ numbered p tr < s + 2 ^ 31 ∧
    seg.seqNum = iss + BitVec.ofNat 32 s ∧ seg.slots <+: (stream p tr).drop s

/-- **Every segment of the connection at `p` is right**, on whichever path it was sent. -/
def Wire (iss : BitVec 32) (p : Ptr) (tr : List Event) : Prop :=
  ∀ pre path seg, pre ++ [.sent p path seg] <+: tr →
    Carries iss p (pre ++ [.sent p path seg]) seg

/-! ## The containers -/

def RetransmitEntry.slots (e : RetransmitEntry) : List Slot :=
  if e.data = [] then [none] else e.data.map some

/-- An entry of the retransmission queue as a part of the stream. -/
def RetransmitEntry.block (e : RetransmitEntry) : Tiling.Block 32 Slot :=
  ⟨e.seqStart, e.seqEnd, e.slots⟩

variable {σ : Type}

/-- The bytes before `snd_una`. -/
def TCB.acknowledgedBytes (t : TCB σ) (p : Ptr) (tr : List Event) : List UInt8 :=
  ((stream p tr).take (numbered p tr - t.inFlight)).filterMap id

/-- **The send side of a connection tiles its stream.** -/
structure TCB.Tiling (t : TCB σ) (p : Ptr) (tr : List Event) : Prop where
  /-- From `snd_una` to `snd_nxt` the entries meet. -/
  contiguous : Tiling.Contiguous t.sndUna (t.retransmitQueue.map RetransmitEntry.block) t.sndNxt
  span : ∀ e ∈ t.retransmitQueue, e.data ≠ [] → e.data.length = (e.seqEnd - e.seqStart).toNat
  sndNxt : t.sndNxt = t.iss + BitVec.ofNat 32 (numbered p tr)
  inFlight : t.inFlight ≤ numbered p tr
  bytes : t.acknowledgedBytes p tr ++ t.retransmitQueue.flatMap (·.data) ++ t.sendBuffer.contents =
    acceptedBytes p tr

/-! ## How they grow -/

variable {p : Ptr} {tr : List Event} {iss : BitVec 32}

theorem stream_snoc (p : Ptr) (tr : List Event) (ev : Event) :
    stream p (tr ++ [ev]) = stream p tr ++ ev.slots p := by
  rw [stream, List.flatMap_append, List.flatMap_singleton]
  rfl

theorem numbered_snoc (p : Ptr) (tr : List Event) (ev : Event) :
    numbered p (tr ++ [ev]) = numbered p tr + ev.numbers p := by
  rw [numbered, List.map_append, List.sum_append, List.map_singleton, List.sum_singleton]
  rfl

theorem Event.slots_bytes (p : Ptr) (ev : Event) : (ev.slots p).filterMap id = ev.bytes p := by
  cases ev with
  | created q k =>
    show (if q = p then [none] else []).filterMap id = []
    split <;> rfl
  | accepted q data =>
    show (if q = p then data.map some else []).filterMap id = if q = p then data else []
    split
    · rw [List.filterMap_map]
      exact List.filterMap_some
    · rfl
  | sent q path seg =>
    cases path with
    | segment =>
      show (if q = p ∧ seg.isFin = true then [none] else []).filterMap id = []
      split <;> rfl
    | raw => rfl
    | probe => rfl
  | _ => rfl

/-- The bytes of the stream are those `send()` took. -/
theorem stream_bytes (p : Ptr) (tr : List Event) :
    (stream p tr).filterMap id = acceptedBytes p tr := by
  induction tr with
  | nil => rfl
  | cons ev tr ih =>
    rw [stream, List.flatMap_cons, List.filterMap_append, ev.slots_bytes, acceptedBytes,
      List.flatMap_cons]
    exact congrArg (ev.bytes p ++ ·) ih

/-- Neither SYN nor FIN is set. -/
def TCPFlags.Plain (flags : UInt8) : Prop := has flags syn = false ∧ has flags fin = false
  deriving Decidable

theorem TCPFlags.plain_ack : Plain ack := by decide

theorem TCPFlags.plain_push : Plain (ack ||| psh) := by decide

theorem TCPSegment.slots_plain {seg : TCPSegment} (h : TCPFlags.Plain seg.flags) :
    seg.slots = seg.data.map some := by
  obtain ⟨hsyn, hfin⟩ := h
  rw [slots, isSyn, isFin, hsyn, hfin, if_neg Bool.false_ne_true, List.nil_append, List.append_nil]

/-- An event that neither adds to the stream of the connection nor is a segment of it. -/
structure Event.Silent (p : Ptr) (ev : Event) : Prop where
  slots : ev.slots p = []
  numbers : ev.numbers p = 0
  notSent : ∀ path seg, ev ≠ .sent p path seg

/-- Events about others are silent. -/
theorem Event.silent_of_ptr {ev : Event} (h : ev.ptr ≠ some p) : ev.Silent p := by
  cases ev with
  | sent q path seg =>
    have hne : q ≠ p := fun hq => h (congrArg some hq)
    refine ⟨?_, ?_, fun path' seg' heq => ?_⟩
    · cases path <;> simp [Event.slots, hne]
    · cases path <;> simp [Event.numbers, hne]
    · cases heq
      exact hne rfl
  | created q k =>
    have hne : q ≠ p := fun hq => h (congrArg some hq)
    exact ⟨if_neg hne, if_neg hne, fun _ _ heq => by cases heq⟩
  | accepted q data =>
    have hne : q ≠ p := fun hq => h (congrArg some hq)
    exact ⟨if_neg hne, rfl, fun _ _ heq => by cases heq⟩
  | _ => exact ⟨rfl, rfl, nofun⟩

theorem Wire.nil : Wire iss p [] := by
  intro pre path seg h
  rw [List.prefix_nil] at h
  exact absurd h (by simp)

/-- A segment has to be right as it is sent. -/
theorem Wire.snoc {ev : Event} (h : Wire iss p tr)
    (hev : ∀ path seg, ev = .sent p path seg → Carries iss p (tr ++ [ev]) seg) :
    Wire iss p (tr ++ [ev]) := by
  intro pre path seg hpre
  rcases List.prefix_concat_iff.mp hpre with heq | hold
  · obtain ⟨-, hlast⟩ := List.append_inj' heq rfl
    cases hlast
    rw [heq]
    exact hev path seg rfl
  · exact h pre path seg hold

theorem Wire.silent {ev : Event} (h : Wire iss p tr) (hev : ev.Silent p) :
    Wire iss p (tr ++ [ev]) :=
  h.snoc fun path seg heq => absurd heq (hev.notSent path seg)

theorem Wire.mono {tr' : List Event} (h : Wire iss p tr') (hpre : tr <+: tr') : Wire iss p tr :=
  fun pre path seg hseg => h pre path seg (hseg.trans hpre)

end NeuStack
