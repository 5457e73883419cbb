import NeuStack.ManagerEvents

/-! # The connection table

Every entry is filed under the tuple of its own TCB and the table never
overflows, whatever happens.  That an entry is never overwritten holds with one
exception.  The dispatcher looks a segment up under its own destination address,
and `handle_listen` files the connection it opens under `_local_ip`; so a SYN to
another address the host takes in, the broadcast address, misses the connection
of the same peer and replaces it.
-/
namespace NeuStack
variable {σ : Type}

namespace TCPConnectionManager
variable {m o : TCPConnectionManager σ}

/-- **The integrity of the table**: each entry is filed under its own tuple, there
are not too many, and none was ever overwritten. -/
structure TableIntact (m : TCPConnectionManager σ) : Prop where
  ownTuple : ∀ k p, (k, p) ∈ m.connections → ∃ t, m.heap p = some t ∧ t.tTuple = k
  limit : m.connections.length ≤ maxConnections
  notReplaced : ∀ p s, .ended p s .replaced ∉ m.trace

variable [ICongestionControl σ] {x : Input σ}

/-- A SYN that overwrites ends a connection. -/
theorem Overwrites.ended (hover : m.Overwrites x) (h : m.WellFormed) :
    ∃ p s, .ended p s .replaced ∈ (m.step x).trace := by
  obtain ⟨seg, old, t, t', -, -, hp, hstep⟩ := hover.step h
  refine ⟨old, t.state, ?_⟩
  rw [hstep]
  refine List.mem_append_left _ ?_
  rw [eraseConnection_trace, endTcb_of_heap hp]
  simp

/-- **Table integrity.**  The table is intact in every state of a run from the
start if and only if no step of it takes in a SYN that overwrites. -/
theorem tableIntact_iff (localIp : UInt32) (xs : List (Input σ)) :
    (∀ ys, ys <+: xs → (GuardedRun.run TCPConnectionManager.step (init localIp) ys).TableIntact) ↔
      GuardedRun.Meets TCPConnectionManager.step (fun m x => ¬ m.Overwrites x)
        (init localIp) xs := by
  constructor
  · refine GuardedRun.meets_of_always (P := TableIntact) (Q := WellFormed)
      (fun _ x hwf => hwf.step x) ?_ (WellFormed.init localIp)
    intro m x hwf _ hintact hover
    obtain ⟨p, s, hev⟩ := hover.ended hwf
    exact hintact.notReplaced p s hev
  · intro hmeets ys hys
    have hkept : ∀ (m : TCPConnectionManager σ), ∀ x ∈ xs,
        (m.WellFormed ∧ ∀ p s, .ended p s .replaced ∉ m.trace) → ¬ m.Overwrites x →
        (m.step x).WellFormed ∧ ∀ p s, .ended p s .replaced ∉ (m.step x).trace := by
      rintro m x - ⟨hwf, htrace⟩ hkeep
      refine ⟨hwf.step x, (path_step hwf x).invariant
        (P := fun s => ∀ p st, .ended p st .replaced ∉ s.mgr.trace) ?_ hwf htrace⟩
      intro s s' hwf hmove hs p st hev
      rcases (hmove.logged hwf).mem hev with hold | hnew
      · exact hs p st hold
      · cases hnew with
        | conn _ hfrom => cases hfrom
        | ended _ hcause => exact hcause rfl
        | replaced _ hover => exact hkeep hover
    obtain ⟨hwf, htrace⟩ := hmeets.always hkept
      ⟨WellFormed.init localIp, fun _ _ => List.not_mem_nil⟩ ys hys
    refine ⟨fun k p hk => ?_, hwf.limit, htrace⟩
    obtain ⟨t, hp, htuple, -⟩ := hwf.connection k p hk
    exact ⟨t, hp, htuple⟩

/-! ### A SYN to the broadcast address -/

/-- The second SYN of the same peer, sent to the broadcast address, destroys the
connection the first one opened. -/
theorem broadcast_overwrites : ¬ ∀ (xs : List (Input (TCPCubic Unit))),
    (∀ x ∈ xs, ∀ seg, x.seg = some seg → seg.dstAddr = 0x0a000001 ∨ seg.dstAddr = 0xffffffff) →
    (GuardedRun.run TCPConnectionManager.step (init 0x0a000001) xs).TableIntact := by
  intro hclaim
  have hintact := hclaim [⟨.silent 0 0, .call (.listen 80 none)⟩,
    ⟨.silent 1 100, .segment (fromPeer TCPFlags.syn 7000 0)⟩,
    ⟨.silent 2 200, .segment { fromPeer TCPFlags.syn 7000 0 with dstAddr := 0xffffffff }⟩] (by
      intro x hx seg hseg
      simp only [List.mem_cons, List.not_mem_nil, or_false] at hx
      rcases hx with rfl | rfl | rfl <;> cases hseg <;> decide)
  exact hintact.notReplaced 1 .synRcvd (by decide +kernel)

end TCPConnectionManager

end NeuStack
