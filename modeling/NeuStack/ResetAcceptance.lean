import NeuStack.Retransmission

/-! # Which RST tears a connection down

`handle_rst` makes one test in all states: the number lies in the receive window, compared
as signed differences.  A RST should be taken in `SYN_SENT` if it acknowledges the SYN, and
elsewhere if it lies in the window, or is the next number if the window is closed.  The test
is right exactly if `RstTestFits`.
-/
namespace NeuStack
variable {σ : Type}

namespace TCB
variable {t : TCB σ} {seg : TCPSegment}

/-- How far the number lies behind `rcv_nxt`. -/
def rstOffset (t : TCB σ) (seg : TCPSegment) : Nat := (seg.seqNum - t.rcvNxt).toNat

/-- `rcv_wnd`, a `uint32_t`. -/
def rcvWnd32 (t : TCB σ) : Nat := t.rcvWnd % 2 ^ 32

/-- **The RST is acceptable.** -/
def Acceptable (t : TCB σ) (seg : TCPSegment) : Prop :=
  if t.state = .synSent then seg.isAck = true ∧ seg.ackNum = t.sndNxt
  else t.rstOffset seg < t.rcvWnd32 ∨ t.rcvWnd32 = 0 ∧ seg.seqNum = t.rcvNxt

/-- Signed differences of 32 bits do not see further than `2^31`. -/
def Near (t : TCB σ) (seg : TCPSegment) : Prop :=
  t.rstOffset seg < 2 ^ 31 ∧ t.rcvWnd32 ≤ t.rstOffset seg + 2 ^ 31

/-- **The test is right for the RST**: in `SYN_SENT` it lies in the window if and only if it
acknowledges the SYN; elsewhere a RST in the window is near, and none comes with the next
number to a closed window. -/
def RstTestFits (t : TCB σ) (seg : TCPSegment) : Prop :=
  if t.state = .synSent then
    (t.rstOffset seg < t.rcvWnd32 ∧ t.Near seg ↔ seg.isAck = true ∧ seg.ackNum = t.sndNxt)
  else
    (t.rstOffset seg < t.rcvWnd32 → t.Near seg) ∧ ¬ (t.rcvWnd32 = 0 ∧ seg.seqNum = t.rcvNxt)

open TCPConnectionManager in
theorem rstInWindow_iff : rstInWindow seg t = true ↔ t.rstOffset seg < t.rcvWnd32 ∧ t.Near seg := by
  have hwnd : (BitVec.ofNat 32 t.rcvWnd).toNat = t.rcvWnd32 := BitVec.toNat_ofNat ..
  rw [rstInWindow, seqInRange, Bool.and_eq_true, seqGe_iff, seqLt_iff, Near, rstOffset, ← hwnd]
  generalize BitVec.ofNat 32 t.rcvWnd = wnd
  bv_omega

open TCPConnectionManager in
/-- When the test and the rule agree. -/
theorem rstInWindow_iff_acceptable :
    (rstInWindow seg t = true ↔ t.Acceptable seg) ↔ t.RstTestFits seg := by
  have hself : seg.seqNum = t.rcvNxt → t.rstOffset seg = 0 := by
    intro h
    rw [rstOffset, h, BitVec.sub_self]
    rfl
  rw [rstInWindow_iff, Acceptable, RstTestFits]
  split
  · exact Iff.rfl
  · constructor
    · intro h
      refine ⟨fun hlt => (h.mpr (Or.inl hlt)).2, fun ⟨hzero, hseq⟩ => ?_⟩
      have hlt := (h.mpr (Or.inr ⟨hzero, hseq⟩)).1
      omega
    · rintro ⟨hnear, hclosed⟩
      constructor
      · exact fun h => Or.inl h.1
      · rintro (hlt | hzero)
        · exact ⟨hlt, hnear hlt⟩
        · exact absurd hzero hclosed

end TCB

namespace TCPConnectionManager
variable [ICongestionControl σ] {m : TCPConnectionManager σ} {p : Ptr} {t : TCB σ} {x : Input σ}
  {seg : TCPSegment}

omit [ICongestionControl σ] in
/-- What is closed does not outlive `delete_tcb`. -/
theorem WellFormed.heap_deleteTcb (h : m.WellFormed)
    (hclosed : ∀ t, m.heap p = some t → t.state = .closed) : (m.deleteTcb p).heap p = none := by
  rcases h.deleteTcb_closed hclosed with ⟨hp, hdel⟩ | ⟨t, hp, hs, ⟨hk, hdel⟩ | ⟨port, hl, hdel⟩⟩ <;>
    rw [hdel]
  · exact hp
  · rw [TCPConnectionManager.eraseConnection, h.findTcb_iff.mpr hk]
    exact Function.update_self ..
  · rw [TCPConnectionManager.eraseListener, h.findListeningTcb_iff.mpr hl]
    exact Function.update_self ..

/-- A RST for a connection is handed to `handle_rst`. -/
theorem step_rst (hx : x.seg = some seg) (hrst : seg.isRst = true)
    (hfind : m.findTcb seg.tuple = some p) : m.step x = m.handleRst x.ctx p seg := by
  rw [step, Input.op_of_seg hx]
  show m.onSegmentReceived x.ctx seg = _
  rw [onSegmentReceived, hfind]
  simp only [hrst, if_true]
  rfl

/-- What `handle_rst` does. -/
theorem handleRst_iff (h : m.WellFormed) (hp : m.heap p = some t) (x : Input σ) (seg : TCPSegment) :
    if rstInWindow seg t then (m.handleRst x.ctx p seg).heap p = none
    else m.handleRst x.ctx p seg = m := by
  cases hwnd : rstInWindow seg t with
  | false =>
    rw [handleRst, test_of_heap hp, hwnd]
    rfl
  | true =>
    obtain ⟨m₁, -, hwf, hclosed, heq⟩ := handleRst_accepted (x := x) h hp hwnd
    rw [heq]
    exact hwf.heap_deleteTcb hclosed

/-- **A RST for a connection tears it down if and only if it is acceptable, and changes
nothing otherwise**: so it is exactly if the test fits. -/
theorem rst_acceptance (h : m.Reachable) (hx : x.seg = some seg) (hrst : seg.isRst = true)
    (hfind : m.findTcb seg.tuple = some p) (hp : m.heap p = some t) :
    (((m.step x).heap p = none ↔ t.Acceptable seg) ∧ (¬ t.Acceptable seg → m.step x = m)) ↔
      t.RstTestFits seg := by
  have hdo := handleRst_iff h.wellFormed hp x seg
  rw [step_rst hx hrst hfind, ← TCB.rstInWindow_iff_acceptable]
  cases hwnd : rstInWindow seg t with
  | true =>
    rw [hwnd, if_pos rfl] at hdo
    simp only [hdo, true_iff]
    exact ⟨And.left, fun hacc => ⟨hacc, fun hno => absurd hacc hno⟩⟩
  | false =>
    rw [hwnd, if_neg Bool.false_ne_true] at hdo
    rw [hdo, hp]
    simp only [Option.some_ne_none, false_iff, Bool.false_eq_true, implies_true, and_true]

/-! ### A RST to a SYN -/

/-- A RST from port 80 of 10.0.0.2 to port 5000 of 10.0.0.1. -/
def rstToCaller (flags : UInt8) (seqNum ackNum : BitVec 32) : TCPSegment :=
  ⟨0x0a000002, 0x0a000001, 80, 5000, seqNum, ackNum, flags, 0, []⟩

/-- One that refuses the SYN is taken in. -/
theorem callingHost_refused : ∃ t, callingHost.heap 0 = some t ∧
    (((callingHost.step ⟨.silent 1 0, .segment (rstToCaller (TCPFlags.rst ||| TCPFlags.ack) 0
        1)⟩).heap 0 = none ↔ t.Acceptable (rstToCaller (TCPFlags.rst ||| TCPFlags.ack) 0 1)) ∧
      (¬ t.Acceptable (rstToCaller (TCPFlags.rst ||| TCPFlags.ack) 0 1) → callingHost.step
        ⟨.silent 1 0, .segment (rstToCaller (TCPFlags.rst ||| TCPFlags.ack) 0 1)⟩ =
          callingHost)) := by
  obtain ⟨t, hp, hs, hnxt, hrcv, hwnd, hfind⟩ := callingHost_tcb
  have hfind : callingHost.findTcb (rstToCaller (TCPFlags.rst ||| TCPFlags.ack) 0 1).tuple =
    some 0 := hfind
  refine ⟨t, hp, (rst_acceptance callingHost_reachable rfl (by decide) hfind hp).mpr ?_⟩
  rw [TCB.RstTestFits, if_pos hs, TCB.Near, TCB.rstOffset, TCB.rcvWnd32, hrcv, hwnd, hnxt]
  decide

/-- So is one that does not acknowledge anything. -/
theorem callingHost_reset : ¬ ∀ (m : TCPConnectionManager (TCPCubic Unit)) x seg p t, m.Reachable →
    x.seg = some seg → seg.isRst = true → m.findTcb seg.tuple = some p → m.heap p = some t →
      ((m.step x).heap p = none ↔ t.Acceptable seg) := by
  intro hclaim
  obtain ⟨t, hp, hs, hnxt, hrcv, hwnd, hfind⟩ := callingHost_tcb
  have hfind : callingHost.findTcb (rstToCaller TCPFlags.rst 100 0).tuple = some 0 := hfind
  have hdown := hclaim callingHost ⟨.silent 1 0, .segment (rstToCaller TCPFlags.rst 100 0)⟩ _ 0 t
    callingHost_reachable rfl (by decide) hfind hp
  have hdo := handleRst_iff callingHost_reachable.wellFormed hp
    ⟨.silent 1 0, .segment (rstToCaller TCPFlags.rst 100 0)⟩ (rstToCaller TCPFlags.rst 100 0)
  have htest : rstInWindow (rstToCaller TCPFlags.rst 100 0) t = true := by
    rw [rstInWindow, hrcv, hwnd]
    decide
  rw [htest, if_pos rfl] at hdo
  rw [step_rst rfl (by decide) hfind] at hdown
  have hacc := hdown.mp hdo
  rw [TCB.Acceptable, if_pos hs] at hacc
  exact absurd hacc.1 (by decide)

end TCPConnectionManager
end NeuStack
