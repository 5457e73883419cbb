import NeuStack.Listeners

/-! # The window a segment advertises

The window field has 16 bits and `rcv_wnd` has 32.  `send_segment` and `raw_send` cap it;
`send_zero_window_probe` truncates it, which is the same up to 65535 and where the low
16 bits are all ones (`advertises_iff`).
-/
namespace NeuStack
variable {σ : Type}

namespace Conn
variable {c c' : Conn σ} {seg seg' : TCPSegment} {path : SendPath}

/-- `c'` has sent the segment since `c`. -/
def Emitted (c c' : Conn σ) (seg : TCPSegment) : Prop :=
  ∃ path, Event.sent c.ptr path seg ∈ c'.trace.drop c.trace.length

/-- What `c'` has sent since `c` carries `min(rcv_wnd, 65535)` and `rcv_nxt`. -/
def Advertises (c c' : Conn σ) : Prop :=
  ∀ seg, Emitted c c' seg → seg.window.toNat = min c.tcb.rcvWnd 65535 ∧ seg.ackNum = c.tcb.rcvNxt

theorem emitted_iff (h : c'.trace = c.trace ++ [.sent c.ptr path seg']) :
    Emitted c c' seg ↔ seg = seg' := by
  rw [Emitted, h, List.drop_left]
  constructor
  · rintro ⟨path', hmem⟩
    cases List.mem_singleton.mp hmem
    rfl
  · rintro rfl
    exact ⟨path, List.mem_singleton.mpr rfl⟩

theorem not_emitted (h : c'.trace = c.trace) : ¬ Emitted c c' seg := by
  rintro ⟨path, hmem⟩
  rw [h, List.drop_length] at hmem
  cases hmem

/-- The segments of `send_segment` and `raw_send`. -/
theorem segment_advertises (t : TCB σ) (flags : UInt8) (seq : BitVec 32) (data : List UInt8) :
    (t.segment flags seq data).window.toNat = min t.rcvWnd 65535 ∧
      (t.segment flags seq data).ackNum = t.rcvNxt := by
  refine ⟨UInt16.toNat_ofNat_of_lt' ?_, rfl⟩
  exact Nat.lt_of_le_of_lt (Nat.min_le_right ..) (by decide)

theorem advertises_sendSegment (env : Env) (flags : UInt8) (data : List UInt8) (c : Conn σ) :
    c.Advertises (c.sendSegment env flags data) := by
  intro seg hseg
  rw [sendSegment] at hseg
  split at hseg
  · exact absurd hseg (not_emitted rfl)
  · rw [(emitted_iff rfl).mp hseg]
    exact segment_advertises ..

theorem advertises_rawSend (flags : UInt8) (seq : BitVec 32) (data : List UInt8) (c : Conn σ) :
    c.Advertises (c.rawSend flags seq data) := by
  intro seg hseg
  rw [rawSend] at hseg
  split at hseg
  · exact absurd hseg (not_emitted rfl)
  · rw [(emitted_iff rfl).mp hseg]
    exact segment_advertises ..

/-- The window of a probe is that of the other segments. -/
def ProbeFits (t : TCB σ) : Prop := t.rcvWnd ≤ 65535 ∨ t.rcvWnd % 65536 = 65535

theorem advertises_probe (c : Conn σ) :
    c.Advertises c.sendZeroWindowProbe ↔ c.tcb.sendBuffer.empty = true ∨ ProbeFits c.tcb := by
  have htrunc : (UInt16.ofNat c.tcb.rcvWnd).toNat = min c.tcb.rcvWnd 65535 ↔ ProbeFits c.tcb := by
    rw [UInt16.toNat_ofNat', ProbeFits]
    omega
  rw [sendZeroWindowProbe]
  split
  · rename_i hempty
    exact iff_of_true (fun seg hseg => absurd hseg (not_emitted rfl)) (Or.inl hempty)
  · rename_i hempty
    rw [or_iff_right hempty, ← htrunc]
    constructor
    · intro h
      exact (h _ ((emitted_iff rfl).mpr rfl)).1
    · intro hwnd seg hseg
      rw [(emitted_iff rfl).mp hseg]
      exact ⟨hwnd, rfl⟩

/-- **When the three ways out advertise the same window.** -/
theorem advertises_iff (c : Conn σ) :
    (∀ env flags data, c.Advertises (c.sendSegment env flags data)) ∧
      (∀ flags seq data, c.Advertises (c.rawSend flags seq data)) ∧
      (c.Advertises c.sendZeroWindowProbe ↔
        c.tcb.sendBuffer.empty = true ∨ ProbeFits c.tcb) :=
  ⟨fun env flags data => advertises_sendSegment env flags data c,
    fun flags seq data => advertises_rawSend flags seq data c, advertises_probe c⟩

end Conn

/-! ### A window of 64 KB -/

namespace TCPConnectionManager

/-- A host whose buffers have 64 KB, connected to a peer with a closed window, with a
byte to send. -/
def waitingHost : TCPConnectionManager (TCPCubic Unit) :=
  GuardedRun.run TCPConnectionManager.step (init 0x0a000001) [
    ⟨.silent 0 0, .call (.setDefaultOptions { recvBufferSize := 65536, sendBufferSize := 65536 })⟩,
    ⟨.silent 0 0, .call (.connect 0x0a000002 80 5000 none)⟩,
    ⟨.silent 1 0, .segment ⟨0x0a000002, 0x0a000001, 80, 5000, 0, 1,
      TCPFlags.syn ||| TCPFlags.ack, 0, []⟩⟩,
    ⟨.silent 2 0, .call (.send 0 [1])⟩]

theorem waitingHost_window : (waitingHost.heap 0).map (fun t => (t.rcvWnd, t.sendBuffer.empty)) =
    some (65536, false) := by
  decide +kernel

/-- Its probe closes the window. -/
theorem waitingHost_advertises : ¬ ∀ (m : TCPConnectionManager (TCPCubic Unit)) p t, m.Reachable →
    m.heap p = some t → Conn.Advertises ⟨p, t, m.trace⟩ (Conn.mk p t m.trace).sendZeroWindowProbe := by
  intro hclaim
  obtain ⟨t, hp, hwnd⟩ := Option.map_eq_some_iff.mp waitingHost_window
  obtain ⟨hrcv, hbuf⟩ := Prod.mk.inj hwnd
  have hfits := (Conn.advertises_probe ⟨0, t, waitingHost.trace⟩).mp
    (hclaim waitingHost 0 t ⟨_, _, rfl⟩ hp)
  rw [hbuf, Conn.ProbeFits, hrcv] at hfits
  exact absurd hfits (by decide)

end TCPConnectionManager
end NeuStack
