import NeuStack.ConnMoves

/-! # The send window

What `send()` and `send_buffered_data` newly transmit fits the window there is at that
moment, the smaller of the congestion window and the peer's, and a segment.  A call logs
several segments and looks at the window anew for each, so the moments are those inside the
call: `Respects c c₁` is about every data segment that a call from `c` to `c₁` logs, and a
connection at which the log ends with it.
-/
namespace NeuStack

/-- Everything that is logged but new data. -/
def Event.NoData : Event → Prop
  | .sent _ .segment seg => seg.data = []
  | _ => True

namespace Conn
variable {σ : Type} [ICongestionControl σ]

/-- The bytes in flight fit the window. -/
def InWindow (c : Conn σ) : Prop := c.tcb.inFlight ≤ c.tcb.effectiveWindow

/-- **Each data segment that is logged between `c` and `c₁` leaves the window respected** at
the moment `c'` it is logged, and carries at most MSS bytes. -/
def Respects (c c₁ : Conn σ) : Prop :=
  ∀ tr seg, c.trace <+: tr → tr ++ [.sent c.ptr .segment seg] <+: c₁.trace → seg.data ≠ [] →
    ∃ c', Path none c c' ∧ c'.ptr = c.ptr ∧ c'.trace = tr ++ [.sent c.ptr .segment seg] ∧
      c'.InWindow ∧ seg.data.length ≤ c'.tcb.options.mss.toNat

variable {c c' c₁ c₂ : Conn σ}

theorem Respects.quiet (h : Grows Event.NoData c.trace c₁.trace) : c.Respects c₁ := by
  rintro tr seg ⟨m, rfl⟩ hlog hdata
  obtain ⟨m', heq, hm'⟩ := h
  rw [heq, List.append_assoc, List.prefix_append_right_inj] at hlog
  exact absurd (hm' _ (hlog.subset (List.mem_append_right _ (List.mem_singleton_self _)))) hdata

/-- A call that logs data last. -/
theorem Respects.last (hpath : Path none c c₁) (hptr : c₁.ptr = c.ptr) {evs : List Event}
    {seg : TCPSegment} (htrace : c₁.trace = c.trace ++ evs ++ [.sent c.ptr .segment seg])
    (hevs : ∀ ev ∈ evs, ev.NoData) (hwindow : c₁.InWindow)
    (hmss : seg.data.length ≤ c₁.tcb.options.mss.toNat) : c.Respects c₁ := by
  intro tr seg' hnew hlog hdata
  rw [htrace] at hlog
  rcases List.prefix_concat_iff.mp hlog with heq | hlog
  · obtain ⟨rfl, hlast⟩ := List.append_inj' heq rfl
    cases List.singleton_inj.mp hlast
    exact ⟨c₁, hpath, hptr, htrace, hwindow, hmss⟩
  · obtain ⟨m, rfl⟩ := hnew
    rw [List.append_assoc, List.prefix_append_right_inj] at hlog
    exact absurd (hevs _ (hlog.subset (List.mem_append_right _ (List.mem_singleton_self _)))) hdata

theorem Respects.trans (hpath : Path none c c₁) (hptr : c₁.ptr = c.ptr)
    (h : c.Respects c₁) (h' : c₁.Respects c₂) (hgrows : c₁.trace <+: c₂.trace) :
    c.Respects c₂ := by
  intro tr seg hnew hlog hdata
  rcases List.prefix_or_prefix_of_prefix hlog hgrows with hbefore | hafter
  · exact h tr seg hnew hbefore hdata
  · rcases List.prefix_concat_iff.mp hafter with heq | hafter
    · exact h tr seg hnew (heq ▸ List.prefix_refl _) hdata
    · rw [← hptr] at hlog ⊢
      obtain ⟨c', hc', hptr', hmoment⟩ := h' tr seg hafter hlog hdata
      exact ⟨c', hpath.trans hc', hptr', hmoment⟩

/-! ## One segment -/

/-- New data that fits the window leaves it respected. -/
theorem inWindow_sendSegment (env : Env) {data : List UInt8} (hpos : 0 < data.length)
    (hle : data.length ≤ tcpMssMax) (hfit : data.length ≤ c.tcb.availableWindow) :
    (c.sendSegment env (TCPFlags.ack ||| TCPFlags.psh) data).InWindow := by
  have hsmall : c.tcb.effectiveWindow < 2 ^ 32 := by
    refine Nat.lt_of_le_of_lt (Nat.min_le_left _ _) ?_
    cases c.tcb.congestionControl with
    | none => exact (by decide : 65535 < 2 ^ 32)
    | some cc => exact cc.cwnd.toNat_lt
  have hwindow : (c.sendSegment env (TCPFlags.ack ||| TCPFlags.psh) data).tcb.effectiveWindow =
      c.tcb.effectiveWindow := by
    rw [TCB.effectiveWindow, sendSegment_congestionControl, sendSegment_sndWnd,
      TCB.effectiveWindow]
  have hnxt : (c.sendSegment env (TCPFlags.ack ||| TCPFlags.psh) data).tcb.sndNxt =
      c.tcb.sndNxt + BitVec.ofNat 32 data.length := by
    rw [sendSegment_data env c hpos hle]
    show _ + BitVec.ofNat 32 (seqSpace (TCPFlags.ack ||| TCPFlags.psh) data.length) = _
    rw [show seqSpace (TCPFlags.ack ||| TCPFlags.psh) data.length = data.length from
      Nat.zero_add _]
  have hroom : c.tcb.inFlight + data.length ≤ c.tcb.effectiveWindow := by
    rw [TCB.availableWindow] at hfit
    omega
  rw [InWindow, hwindow, TCB.inFlight, hnxt, sendSegment_sndUna]
  have hsum : (c.tcb.sndNxt + BitVec.ofNat 32 data.length - c.tcb.sndUna) =
      (c.tcb.sndNxt - c.tcb.sndUna) + BitVec.ofNat 32 data.length := by
    rw [BitVec.sub_eq_add_neg, BitVec.sub_eq_add_neg, BitVec.add_assoc, BitVec.add_comm (.ofNat ..),
      BitVec.add_assoc]
  rw [hsum, BitVec.toNat_add, BitVec.toNat_ofNat]
  rw [TCB.inFlight] at hroom
  omega

omit [ICongestionControl σ] in
/-- What is too long for a segment is not sent. -/
theorem sendSegment_long (env : Env) {data : List UInt8} (hlong : tcpMssMax < data.length) :
    c.sendSegment env (TCPFlags.ack ||| TCPFlags.psh) data = c := by
  unfold sendSegment
  exact if_pos hlong

omit [ICongestionControl σ] in
/-- A segment without data. -/
theorem noData_sendSegment (env : Env) (flags : UInt8) :
    Grows Event.NoData c.trace (c.sendSegment env flags []).trace := by
  unfold sendSegment
  exact .single rfl

/-! ## The loop -/

theorem chunk_pos (hbuf : c.tcb.sendBuffer.empty = false) (hav : c.tcb.availableWindow ≠ 0)
    (hmss : 0 < c.tcb.options.mss) : 0 < chunk c.tcb := by
  have hpeek := c.tcb.sendBuffer.peekContiguous_pos hbuf
  have hmss : 0 < c.tcb.options.mss.toNat := UInt16.lt_iff_toNat_lt.mp hmss
  rw [chunk]
  omega

theorem grows_drainStep (env : Env) (c : Conn σ) : c.trace <+: (c.drainStep env).trace :=
  (grows_sendSegment env _ _ c).isPrefix

theorem respects_drainStep (env : Env) (hbuf : c.tcb.sendBuffer.empty = false)
    (hav : c.tcb.availableWindow ≠ 0) : c.Respects (c.drainStep env) := by
  have hpath : Path none c (c.drainStep env) := .single (.drain env c hbuf hav)
  generalize hdata : c.tcb.sendBuffer.peekContiguous.take (chunk c.tcb) = data
  have hlen : data.length ≤ chunk c.tcb := by
    rw [← hdata, List.length_take]
    exact Nat.min_le_left _ _
  have htcb : (c.drainStep env).trace =
      (c.sendSegment env (TCPFlags.ack ||| TCPFlags.psh) data).trace := by rw [← hdata]; rfl
  rcases Nat.eq_zero_or_pos data.length with hzero | hpos
  · rw [List.length_eq_zero_iff.mp hzero] at htcb
    exact .quiet (htcb ▸ noData_sendSegment env _)
  · rcases Nat.lt_or_ge tcpMssMax data.length with hlong | hle
    · rw [sendSegment_long env hlong] at htcb
      exact .quiet (htcb ▸ .refl _)
    · have hfit : data.length ≤ c.tcb.availableWindow := by
        rw [chunk] at hlen
        omega
      have hsent := inWindow_sendSegment env hpos hle hfit
      have hlog : (c.drainStep env).trace = c.trace ++ [] ++ [.sent c.ptr .segment
          (c.tcb.segment (TCPFlags.ack ||| TCPFlags.psh) c.tcb.sndNxt data)] := by
        rw [htcb, sendSegment_data env c hpos hle, List.append_nil]
      have hmss : (c.drainStep env).tcb.options = c.tcb.options :=
        congrArg TCBIdentity.options (sendSegment_identity env _ _ c)
      refine .last hpath (drainStep_ptr ..) hlog nofun ?_ ?_
      · rw [← hdata] at hsent
        exact hsent
      · rw [hmss]
        exact Nat.le_trans hlen (Nat.min_le_right _ _)

theorem respects_drain (env : Env) (fuel : Nat) (c : Conn σ) : c.Respects (c.drain env fuel) ∧
    c.trace <+: (c.drain env fuel).trace := by
  induction fuel generalizing c with
  | zero => exact ⟨.quiet (.refl _), List.prefix_refl _⟩
  | succ fuel ih =>
    rw [drain]
    split
    · exact ⟨.quiet (.refl _), List.prefix_refl _⟩
    · rename_i hbuf
      have hbuf : c.tcb.sendBuffer.empty = false := Bool.not_eq_true _ ▸ hbuf
      split
      · exact ⟨.quiet (.refl _), List.prefix_refl _⟩
      · rename_i hav
        obtain ⟨hrest, hgrows⟩ := ih (c.drainStep env)
        exact ⟨.trans (.single (.drain env c hbuf hav)) (drainStep_ptr ..)
          (respects_drainStep env hbuf hav) hrest hgrows, (grows_drainStep env c).trans hgrows⟩

/-- `send_buffered_data` cannot go on. -/
def Done (c : Conn σ) : Prop := c.tcb.sendBuffer.empty = true ∨ c.tcb.availableWindow = 0

theorem drain_of_done (env : Env) (h : c.Done) (fuel : Nat) : c.drain env fuel = c := by
  cases fuel with
  | zero => rfl
  | succ fuel =>
    rw [drain]
    rcases h with hbuf | hav
    · exact if_pos hbuf
    · rw [if_pos hav, ite_self]

theorem drain_add (env : Env) (m n : Nat) (c : Conn σ) :
    c.drain env (m + n) = (c.drain env m).drain env n := by
  induction m generalizing c with
  | zero =>
    rw [Nat.zero_add]
    rfl
  | succ m ih =>
    rw [Nat.add_right_comm, drain, drain]
    split
    · rename_i hbuf
      exact (drain_of_done env (Or.inl hbuf) n).symm
    · split
      · rename_i hav
        exact (drain_of_done env (Or.inr hav) n).symm
      · exact ih _

/-- **The loop ends**, after at most as many rounds as there are bytes, and only when there
are none left or the window is full. -/
theorem drain_done (env : Env) (hmss : 0 < c.tcb.options.mss) :
    (c.drain env c.tcb.sendBuffer.size).Done := by
  have hdone (fuel : Nat) (c : Conn σ) (hmss : 0 < c.tcb.options.mss)
      (hfuel : c.tcb.sendBuffer.size ≤ fuel) : (c.drain env fuel).Done := by
    induction fuel generalizing c with
    | zero =>
      refine Or.inl ?_
      rw [drain, StreamBuffer.empty, Nat.le_zero.mp hfuel]
      rfl
    | succ fuel ih =>
      rw [drain]
      split
      · rename_i hbuf
        exact Or.inl hbuf
      · rename_i hbuf
        split
        · rename_i hav
          exact Or.inr hav
        · rename_i hav
          have hchunk := chunk_pos (Bool.not_eq_true _ ▸ hbuf) hav hmss
          have hsize : (c.drainStep env).tcb.sendBuffer.size =
              c.tcb.sendBuffer.size - chunk c.tcb := by
            rw [drainStep, sendSegment_sendBuffer]
            exact StreamBuffer.size_consume ..
          have hsame : (c.drainStep env).tcb.options = c.tcb.options :=
            congrArg TCBIdentity.options (sendSegment_identity env _ _ c)
          refine ih _ (hsame ▸ hmss) ?_
          rw [hsize]
          omega
  exact hdone _ c hmss (Nat.le_refl _)

/-! ## The calls -/

theorem respects_sendBufferedData (env : Env) (c : Conn σ) :
    c.Respects (c.sendBufferedData env) ∧ c.trace <+: (c.sendBufferedData env).trace := by
  obtain ⟨hdrain, hgrows⟩ := respects_drain env c.tcb.sendBuffer.size c
  have hptr : (c.drain env c.tcb.sendBuffer.size).ptr = c.ptr :=
    drain_induction (motive := fun c' => c'.ptr = c.ptr) env
      (fun c' h => by rw [drainStep_ptr, h]) _ rfl
  have hfinish : Grows Event.NoData (c.drain env c.tcb.sendBuffer.size).trace
      (c.sendBufferedData env).trace := by
    rw [sendBufferedData, completeClose]
    split
    · dsimp only
      split
      · refine Grows.trans ?_ (.single (a := Event.moved _ _ _) trivial)
        exact noData_sendSegment env _
      · exact .refl _
    · exact .refl _
  exact ⟨.trans (path_drain env c _) hptr hdrain (.quiet hfinish) hfinish.isPrefix,
    hgrows.trans hfinish.isPrefix⟩

/-- The segment `send()` begins with. -/
theorem respects_first (env : Env) {data : List UInt8} {n : Nat}
    (hpath : Path none c (((c.log (.accepted c.ptr data)).sendSegment env
      (TCPFlags.ack ||| TCPFlags.psh) (data.take n)).buffer (data.drop n)))
    (hn : n ≤ min c.tcb.availableWindow c.tcb.options.mss.toNat) :
    c.Respects (((c.log (.accepted c.ptr data)).sendSegment env
      (TCPFlags.ack ||| TCPFlags.psh) (data.take n)).buffer (data.drop n)) := by
  generalize hc : c.log (.accepted c.ptr data) = logged at hpath ⊢
  have htcb : logged.tcb = c.tcb := by rw [← hc]; rfl
  have hptr : logged.ptr = c.ptr := by rw [← hc]; rfl
  have hlogged : Grows Event.NoData c.trace logged.trace := by
    rw [← hc]
    exact .single trivial
  have hlen : (data.take n).length ≤ n := by
    rw [List.length_take]
    exact Nat.min_le_left _ _
  generalize data.take n = first at hpath hlen ⊢
  rcases Nat.eq_zero_or_pos first.length with hzero | hpos
  · rw [List.length_eq_zero_iff.mp hzero]
    exact .quiet (hlogged.trans (noData_sendSegment env _))
  · rcases Nat.lt_or_ge tcpMssMax first.length with hlong | hle
    · rw [sendSegment_long env hlong]
      exact .quiet hlogged
    · have hfit : first.length ≤ logged.tcb.availableWindow := by
        rw [htcb]
        omega
      have hsent := inWindow_sendSegment env hpos hle hfit
      have hlog : ((logged.sendSegment env (TCPFlags.ack ||| TCPFlags.psh) first).buffer
          (data.drop n)).trace = c.trace ++ [.accepted c.ptr data] ++ [.sent c.ptr .segment
            (logged.tcb.segment (TCPFlags.ack ||| TCPFlags.psh) logged.tcb.sndNxt first)] := by
        rw [buffer_trace, sendSegment_data env logged hpos hle, hptr, ← hc]
        rfl
      have hmss : ((logged.sendSegment env (TCPFlags.ack ||| TCPFlags.psh) first).buffer
          (data.drop n)).tcb.options = c.tcb.options := by
        rw [← htcb]
        exact congrArg TCBIdentity.options (sendSegment_identity env _ _ logged)
      refine .last hpath ?_ hlog (fun ev hev => ?_) hsent ?_
      · rw [buffer_ptr, sendSegment_ptr, hptr]
      · rw [List.mem_singleton.mp hev]
        trivial
      · rw [hmss]
        show first.length ≤ _
        omega

theorem respects_send (env : Env) (data : List UInt8) (c : Conn σ) :
    c.Respects (c.send env data).2 := by
  unfold send
  split
  · exact .quiet (.refl _)
  rename_i hs
  have hs : c.tcb.state.canSend = true := by simpa using hs
  split
  · exact .quiet (.refl _)
  split
  · exact .quiet (.refl _)
  rename_i hlen hspace
  dsimp only
  generalize hacc : min data.length c.tcb.sendBuffer.available = accepted
  have hle : (data.take accepted).length = accepted := by rw [List.length_take]; omega
  have hne : data.take accepted ≠ [] := by
    rw [← List.length_pos_iff_ne_nil, hle]
    omega
  have hfit : (data.take accepted).length ≤ c.tcb.sendBuffer.available := by omega
  have hbuffer : c.Respects ((c.log (.accepted c.ptr (data.take accepted))).buffer
      (data.take accepted)) := .quiet (.single trivial)
  split
  · exact hbuffer
  rename_i hbuf
  split
  · exact hbuffer
  split
  · exact hbuffer
  rename_i hav
  have hbuf : c.tcb.sendBuffer.empty = true := by simpa using hbuf
  have hmove : Move none c _ := .transmitData env c (data.take accepted) _ hs hne hfit hbuf hav rfl
  rw [hle] at hmove
  generalize hn : min (min accepted c.tcb.availableWindow) c.tcb.options.mss.toNat = n at hmove
  have hfirst := respects_first env (.single hmove) (by omega)
  simp only [log_tcb, hn]
  -- nothing is buffered when everything went out
  have hrest : ∀ c' : Conn σ, (if n < accepted then c'.buffer ((data.take accepted).drop n) else c')
      = c'.buffer ((data.take accepted).drop n) := by
    intro c'
    split
    · rfl
    · rw [List.drop_eq_nil_of_le (by omega), buffer_nil]
  rw [hrest]
  split
  · obtain ⟨hbuffered, hgrows⟩ := respects_sendBufferedData env
      (((c.log (.accepted c.ptr (data.take accepted))).sendSegment env
        (TCPFlags.ack ||| TCPFlags.psh) ((data.take accepted).take n)).buffer
          ((data.take accepted).drop n))
    refine .trans (.single hmove) ?_ hfirst hbuffered hgrows
    rw [buffer_ptr, sendSegment_ptr, log_ptr]
  · exact hfirst

/-- **Flow and congestion limits are respected** by everything `send()` and
`send_buffered_data` newly transmit, in whatever state the connection is; the loop ends for
every positive MSS, with nothing left or the window full. -/
theorem respects_window (env : Env) (c : Conn σ) :
    (∀ data, c.Respects (c.send env data).2) ∧ c.Respects (c.sendBufferedData env) ∧
      (1 ≤ c.tcb.options.mss → ∃ rounds,
        (∀ fuel, rounds ≤ fuel → c.drain env fuel = c.drain env rounds) ∧
        ((c.drain env rounds).tcb.sendBuffer.empty = true ∨
          (c.drain env rounds).tcb.effectiveWindow ≤ (c.drain env rounds).tcb.inFlight)) := by
  refine ⟨fun data => respects_send env data c, (respects_sendBufferedData env c).1,
    fun hmss => ⟨c.tcb.sendBuffer.size, fun fuel hfuel => ?_, ?_⟩⟩
  · obtain ⟨k, rfl⟩ := Nat.exists_eq_add_of_le hfuel
    rw [drain_add, drain_of_done env (drain_done env hmss)]
  · exact (drain_done env hmss).imp_right Nat.sub_eq_zero_iff_le.mp

end Conn
end NeuStack
