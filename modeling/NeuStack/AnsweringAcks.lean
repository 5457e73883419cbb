import NeuStack.SendWindow
import NeuStack.Shape

/-! # Acknowledgements that are answered

When `process_ack` puts a segment on the wire, read off the TCB it finds (`AnswersAck`).  It
does so by the third duplicate, which sends the head of the queue again, and through
`send_buffered_data`, if the window leaves room or a `close()` can be completed.

An MSS above `TCP_MSS_MAX` makes the second exact only with some care: a piece that does not
fit a segment is dropped, and the loop goes on to the next (`PieceFits`).
-/
namespace NeuStack

/-- Between the two traces, the connection at `p` has sent a segment with ACK = `n`. -/
def Acknowledges (p : Ptr) (n : BitVec 32) (tr tr' : List Event) : Prop :=
  ∃ path seg, Event.sent p path seg ∈ tr'.drop tr.length ∧ seg.isAck = true ∧ seg.ackNum = n

/-- An event that is no segment of the connection at `p`. -/
def Event.Mute (p : Ptr) (ev : Event) : Prop := ∀ path seg, ev ≠ .sent p path seg

namespace Acknowledges
variable {p : Ptr} {n : BitVec 32} {tr tr₁ tr' : List Event}

theorem single {path : SendPath} {seg : TCPSegment} (hack : seg.isAck = true) :
    Acknowledges p seg.ackNum tr (tr ++ [.sent p path seg]) := by
  refine ⟨path, seg, ?_, hack, rfl⟩
  rw [List.drop_left]
  exact List.mem_singleton_self _

theorem before (h : Acknowledges p n tr tr₁) (hle : tr₁ <+: tr') : Acknowledges p n tr tr' := by
  obtain ⟨path, seg, hmem, hseg⟩ := h
  exact ⟨path, seg, (hle.drop tr.length).subset hmem, hseg⟩

theorem behind (h : Acknowledges p n tr₁ tr') (hle : tr <+: tr₁) : Acknowledges p n tr tr' := by
  obtain ⟨path, seg, hmem, hseg⟩ := h
  exact ⟨path, seg, (List.drop_sublist_drop_left tr' hle.length_le).subset hmem, hseg⟩

theorem not_mute (h : Grows (Event.Mute p) tr tr') : ¬ Acknowledges p n tr tr' := by
  rintro ⟨path, seg, hmem, -⟩
  obtain ⟨evs, rfl, hevs⟩ := h
  rw [List.drop_left] at hmem
  exact hevs _ hmem path seg rfl

/-- What was said before a silence. -/
theorem before_mute (hle : tr <+: tr₁) (h : Grows (Event.Mute p) tr₁ tr') :
    Acknowledges p n tr tr' ↔ Acknowledges p n tr tr₁ := by
  refine ⟨?_, fun hack => hack.before h.isPrefix⟩
  rintro ⟨path, seg, hmem, hseg⟩
  obtain ⟨evs, rfl, hevs⟩ := h
  rw [List.drop_append_of_le_length hle.length_le] at hmem
  exact ⟨path, seg, (List.mem_append.mp hmem).resolve_right fun hev => hevs _ hev path seg rfl, hseg⟩

end Acknowledges

/-! ## The pieces of the buffer -/

/-- A block of `k` bytes that is cut into pieces of `u` ends with one that fits a segment. -/
def LastFits (u k : Nat) : Prop := 0 < k % u ∧ k % u ≤ tcpMssMax

theorem LastFits.not_of_le {u k : Nat} (hlong : tcpMssMax < k) (hle : k ≤ u) : ¬ LastFits u k := by
  rintro ⟨hpos, hfit⟩
  rcases Nat.eq_or_lt_of_le hle with rfl | hlt
  · rw [Nat.mod_self] at hpos
    exact Nat.lt_irrefl 0 hpos
  · rw [Nat.mod_eq_of_lt hlt] at hfit
    omega

theorem LastFits.not_zero (u : Nat) : ¬ LastFits u 0 := by
  rintro ⟨hpos, -⟩
  rw [Nat.zero_mod] at hpos
  exact Nat.lt_irrefl 0 hpos

theorem LastFits.sub_iff {u k : Nat} (hle : u ≤ k) : LastFits u (k - u) ↔ LastFits u k := by
  rw [LastFits, LastFits, Nat.mod_eq_sub_mod hle]

namespace StreamBuffer
variable (b : StreamBuffer)

/-- The length of the block `peek_contiguous` shows. -/
def firstBlock : Nat := min b.size (b.capacity - b.readPos)

/-- The lengths of the two blocks the bytes lie in. -/
def blocks : List Nat := [b.firstBlock, b.size - b.firstBlock]

theorem length_peekContiguous : b.peekContiguous.length = b.firstBlock := by
  rw [peekContiguous_eq, List.length_take, length_contents, firstBlock]
  omega

theorem firstBlock_consume {n : Nat} (hn : n ≤ b.firstBlock) :
    (b.consume n).2.firstBlock = if n < b.firstBlock then b.firstBlock - n else b.size - n := by
  have hsize := b.size_le
  have hmin : min n b.size = n := Nat.min_eq_left (Nat.le_trans hn (Nat.min_le_left ..))
  have hpos : (b.consume n).2.readPos = (b.readPos + n) % b.capacity := by
    show (b.readPos + min n b.size) % b.capacity = _
    rw [hmin]
  rw [firstBlock, size_consume, hpos, capacity_consume]
  rw [firstBlock] at hn ⊢
  have hcap : b.size ≤ b.capacity := hsize
  rcases Nat.eq_zero_or_pos b.size with hzero | hsome
  · simp only [hzero, Nat.zero_min, Nat.zero_sub, ite_self]
  have hread : b.readPos < b.capacity := b.readPos_lt (Nat.lt_of_lt_of_le hsome hsize)
  rcases Nat.lt_or_ge (b.readPos + n) b.capacity with hlt | hge
  · rw [Nat.mod_eq_of_lt hlt]
    split <;> omega
  · have heq : b.readPos + n = b.capacity := by omega
    rw [heq, Nat.mod_self]
    split <;> omega

/-- Dropping a piece that fits no segment does not change what else there is. -/
theorem lastFits_consume {u n : Nat} (hn : n = min b.firstBlock u) (hlong : tcpMssMax < n) :
    (∃ k ∈ (b.consume n).2.blocks, LastFits u k) ↔ ∃ k ∈ b.blocks, LastFits u k := by
  have hle : n ≤ b.firstBlock := hn ▸ Nat.min_le_left ..
  have hfirst : b.firstBlock ≤ b.size := Nat.min_le_left ..
  simp only [blocks, List.mem_cons, List.not_mem_nil, or_false, exists_eq_or_imp, exists_eq_left,
    b.firstBlock_consume hle, size_consume]
  split
  · rename_i hlt
    have hu : n = u := by omega
    rw [hu] at hlt ⊢
    rw [LastFits.sub_iff (Nat.le_of_lt hlt),
      show b.size - u - (b.firstBlock - u) = b.size - b.firstBlock by omega]
  · have hall : n = b.firstBlock := by omega
    rw [Nat.sub_self, or_iff_left (LastFits.not_zero u),
      or_iff_right (LastFits.not_of_le (u := u) (hall ▸ hlong) (by omega)), hall]

end StreamBuffer

variable {σ : Type}

/-! ## Speaking -/

namespace Conn
variable {c c₁ c' : Conn σ} {P Q : Prop}

/-- **From `c` to `c'` the connection speaks exactly if `P`**: a segment with ACK = `rcv_nxt`,
or none at all. -/
structure SpeaksIff (P : Prop) (c c' : Conn σ) : Prop where
  speaks : P → Acknowledges c.ptr c.tcb.rcvNxt c.trace c'.trace
  mute : ¬ P → Grows (Event.Mute c.ptr) c.trace c'.trace

namespace SpeaksIff

theorem congr (h : SpeaksIff P c c') (hiff : P ↔ Q) : SpeaksIff Q c c' :=
  ⟨fun hQ => h.speaks (hiff.mpr hQ), fun hQ => h.mute fun hP => hQ (hiff.mp hP)⟩

theorem silent (hP : ¬ P) (h : c'.trace = c.trace) : SpeaksIff P c c' :=
  ⟨fun h => absurd h hP, fun _ => h ▸ .refl _⟩

theorem iff (h : SpeaksIff P c c') :
    Acknowledges c.ptr c.tcb.rcvNxt c.trace c'.trace ↔ P := by
  refine ⟨fun hack => ?_, h.speaks⟩
  by_contra hP
  exact Acknowledges.not_mute (h.mute hP) hack

/-- Speaking at all is speaking with ACK = `rcv_nxt`. -/
theorem iff_exists (h : SpeaksIff P c c') :
    (∃ n, Acknowledges c.ptr n c.trace c'.trace) ↔ P := by
  refine ⟨?_, fun hP => ⟨_, h.speaks hP⟩⟩
  rintro ⟨n, hack⟩
  by_contra hP
  exact Acknowledges.not_mute (h.mute hP) hack

/-- One call behind another. -/
theorem trans (h : SpeaksIff P c c₁) (h' : SpeaksIff Q c₁ c') (hptr : c₁.ptr = c.ptr)
    (hrcv : c₁.tcb.rcvNxt = c.tcb.rcvNxt) (hle : c.trace <+: c₁.trace)
    (hle' : c₁.trace <+: c'.trace) : SpeaksIff (P ∨ Q) c c' := by
  obtain ⟨hspeaks, hmute⟩ := h'
  rw [hptr, hrcv] at hspeaks
  rw [hptr] at hmute
  refine ⟨fun hor => hor.elim (fun hP => (h.speaks hP).before hle')
    fun hQ => (hspeaks hQ).behind hle, fun hnot => ?_⟩
  rw [not_or] at hnot
  exact (h.mute hnot.1).trans (hmute hnot.2)

end SpeaksIff

/-- A segment is sent if its data fits. -/
theorem speaks_sendSegment (env : Env) (flags : UInt8)
    (hflags : TCPFlags.has flags TCPFlags.ack = true) (data : List UInt8) (c : Conn σ) :
    SpeaksIff (data.length ≤ tcpMssMax) c (c.sendSegment env flags data) := by
  rw [sendSegment]
  split
  · rename_i hlong
    exact .silent (Nat.not_le.mpr hlong) rfl
  · rename_i hfits
    exact ⟨fun _ => Acknowledges.single hflags, fun hlong => absurd (Nat.not_lt.mp hfits) hlong⟩

theorem speaks_rawSend (flags : UInt8) (hflags : TCPFlags.has flags TCPFlags.ack = true)
    (seq : BitVec 32) (data : List UInt8) (c : Conn σ) :
    SpeaksIff (data.length ≤ tcpMssMax) c (c.rawSend flags seq data) := by
  rw [rawSend]
  split
  · rename_i hlong
    exact .silent (Nat.not_le.mpr hlong) rfl
  · rename_i hfits
    exact ⟨fun _ => Acknowledges.single hflags, fun hlong => absurd (Nat.not_lt.mp hfits) hlong⟩

end Conn

variable [ICongestionControl σ]

namespace TCB

/-- Cut into the pieces the window and the MSS allow, the buffer has one that fits a
segment. -/
def PieceFits (t : TCB σ) : Prop :=
  min t.availableWindow t.options.mss.toNat ≤ tcpMssMax ∨
    ∃ k ∈ t.sendBuffer.blocks, LastFits (min t.availableWindow t.options.mss.toNat) k

/-- `send_buffered_data` sends something: data, or the FIN of a `close()` that it completes. -/
def SendsBuffered (t : TCB σ) : Prop :=
  (t.sendBuffer.empty = true ∨ t.availableWindow ≠ 0) ∧
    (t.sendBuffer.empty = false ∧ t.PieceFits ∨ t.closePending = true ∧ t.state.canSend = true)

end TCB

namespace Conn
variable {c : Conn σ}

theorem chunk_eq (t : TCB σ) : chunk t =
    min t.sendBuffer.firstBlock (min t.availableWindow t.options.mss.toNat) := by
  rw [chunk, StreamBuffer.length_peekContiguous, Nat.min_assoc]

/-- A round of the loop whose piece is too long only drops it. -/
theorem drainStep_long (env : Env) (hlong : tcpMssMax < chunk c.tcb) :
    c.drainStep env = { c with tcb := { c.tcb with
      sendBuffer := (c.tcb.sendBuffer.consume (chunk c.tcb)).2 } } := by
  have hlen : (c.tcb.sendBuffer.peekContiguous.take (chunk c.tcb)).length = chunk c.tcb := by
    rw [List.length_take, StreamBuffer.length_peekContiguous, chunk_eq]
    omega
  rw [drainStep]
  dsimp only
  rw [sendSegment_long env (hlen.symm ▸ hlong)]

theorem pieceFits_drainStep (env : Env) (hlong : tcpMssMax < chunk c.tcb) :
    (c.drainStep env).tcb.PieceFits ↔ c.tcb.PieceFits := by
  rw [drainStep_long env hlong]
  exact or_congr_right (StreamBuffer.lastFits_consume _ (chunk_eq c.tcb) hlong)

/-- **The loop of `send_buffered_data`** with room in the window: it sends a piece that fits,
or drops what there is. -/
theorem drain_cases (env : Env) (fuel : Nat) (c : Conn σ) (hsize : c.tcb.sendBuffer.size ≤ fuel)
    (hbuf : c.tcb.sendBuffer.empty = false) (hav : c.tcb.availableWindow ≠ 0) :
    (c.tcb.PieceFits → Acknowledges c.ptr c.tcb.rcvNxt c.trace (c.drain env fuel).trace) ∧
    (¬ c.tcb.PieceFits → ∃ b : StreamBuffer, b.empty = true ∧
      c.drain env fuel = { c with tcb := { c.tcb with sendBuffer := b } }) := by
  induction fuel generalizing c with
  | zero =>
    rw [StreamBuffer.empty, Nat.le_zero.mp hsize] at hbuf
    cases hbuf
  | succ fuel ih =>
    rw [drain, if_neg (by rw [hbuf]; exact Bool.false_ne_true), if_neg hav]
    rcases Nat.lt_or_ge tcpMssMax (chunk c.tcb) with hlong | hfits
    · have hpos : 0 < chunk c.tcb := Nat.zero_lt_of_lt hlong
      have hstep := drainStep_long env hlong
      have hpiece := pieceFits_drainStep env hlong
      have hless : (c.drainStep env).tcb.sendBuffer.size =
          c.tcb.sendBuffer.size - chunk c.tcb := by
        rw [hstep]
        exact StreamBuffer.size_consume ..
      have hleft : (c.drainStep env).tcb.sendBuffer.size ≤ fuel := by omega
      cases hrest : (c.drainStep env).tcb.sendBuffer.empty with
      | false =>
        obtain ⟨hspeaks, hdrops⟩ := ih (c.drainStep env) hleft hrest (hstep ▸ hav)
        rw [hpiece] at hspeaks hdrops
        rw [hstep] at hspeaks hdrops ⊢
        exact ⟨hspeaks, hdrops⟩
      | true =>
        have hnone : ¬ c.tcb.PieceFits := by
          rw [← hpiece]
          rintro (hle | ⟨k, hk, hlast⟩)
          · rw [hstep] at hle
            have hmin := chunk_eq c.tcb
            have hle : min c.tcb.availableWindow c.tcb.options.mss.toNat ≤ tcpMssMax := hle
            omega
          · have hzero : (c.drainStep env).tcb.sendBuffer.size = 0 := beq_iff_eq.mp hrest
            rw [StreamBuffer.blocks, StreamBuffer.firstBlock, hzero, Nat.zero_min] at hk
            rw [(by simpa using hk : k = 0)] at hlast
            exact LastFits.not_zero _ hlast
        rw [drain_of_done env (Or.inl hrest)]
        refine ⟨fun h => absurd h hnone, fun _ => ⟨_, hrest, ?_⟩⟩
        rw [hstep]
    · have hlen : (c.tcb.sendBuffer.peekContiguous.take (chunk c.tcb)).length ≤ tcpMssMax :=
        Nat.le_trans (List.length_take_le ..) hfits
      have hsent : Acknowledges c.ptr c.tcb.rcvNxt c.trace (c.drainStep env).trace :=
        (speaks_sendSegment env _ (by decide) _ c).speaks hlen
      have hrest := (path_drain (x := none) env (c.drainStep env) fuel).grows.isPrefix
      refine ⟨fun _ => hsent.before hrest, fun hnone => ?_⟩
      by_cases hu : min c.tcb.availableWindow c.tcb.options.mss.toNat ≤ tcpMssMax
      · exact absurd (Or.inl hu) hnone
      · refine absurd (Or.inr ⟨_, List.mem_cons_self .., ?_⟩) hnone
        have hfirst : 0 < c.tcb.sendBuffer.firstBlock := by
          rw [← StreamBuffer.length_peekContiguous]
          exact c.tcb.sendBuffer.peekContiguous_pos hbuf
        have hchunk := chunk_eq c.tcb
        have hlt : c.tcb.sendBuffer.firstBlock <
            min c.tcb.availableWindow c.tcb.options.mss.toNat := by omega
        rw [LastFits, Nat.mod_eq_of_lt hlt]
        exact ⟨hfirst, by omega⟩

omit [ICongestionControl σ] in
/-- The FIN of a `close()` that had to wait. -/
theorem speaks_completeClose (env : Env) (c : Conn σ) :
    SpeaksIff (c.tcb.sendBuffer.empty = true ∧ c.tcb.closePending = true ∧
      c.tcb.state.canSend = true) c (c.completeClose env) := by
  rw [completeClose]
  split
  · rename_i hready
    rw [Bool.and_eq_true] at hready
    dsimp only
    split
    · rename_i hcan
      have hfin := (speaks_sendSegment env (TCPFlags.fin ||| TCPFlags.ack) (by decide) []
        { c with tcb := { c.tcb with closePending := false } }).speaks (Nat.zero_le _)
      exact ⟨fun _ => hfin.before (List.prefix_append ..),
        fun hnot => absurd ⟨hready.1, hready.2, hcan⟩ hnot⟩
    · rename_i hcan
      exact .silent (fun h => hcan h.2.2) rfl
  · rename_i hready
    rw [Bool.and_eq_true] at hready
    exact .silent (fun h => hready ⟨h.1, h.2.1⟩) rfl

/-- **`send_buffered_data`.** -/
theorem speaks_sendBufferedData (env : Env) (c : Conn σ) :
    SpeaksIff c.tcb.SendsBuffered c (c.sendBufferedData env) := by
  have hclose := speaks_completeClose env (c.drain env c.tcb.sendBuffer.size).updateRcvWnd
  rw [sendBufferedData]
  cases hbuf : c.tcb.sendBuffer.empty with
  | true =>
    rw [drain_of_done env (Or.inl hbuf)] at hclose ⊢
    obtain ⟨hspeaks, hmute⟩ := hclose
    have hclose : SpeaksIff _ c _ := ⟨hspeaks, hmute⟩
    refine hclose.congr ?_
    simp [TCB.SendsBuffered, hbuf]
  | false =>
    by_cases hav : c.tcb.availableWindow = 0
    · rw [drain_of_done env (Or.inr hav)] at hclose ⊢
      obtain ⟨hspeaks, hmute⟩ := hclose
      have hclose : SpeaksIff _ c _ := ⟨hspeaks, hmute⟩
      refine hclose.congr ?_
      simp [TCB.SendsBuffered, hbuf, hav]
    · obtain ⟨hpiece, hdrop⟩ := drain_cases env _ c (Nat.le_refl _) hbuf hav
      by_cases hfits : c.tcb.PieceFits
      · have hrest := (path_completeClose (x := none) env
          (c.drain env c.tcb.sendBuffer.size).updateRcvWnd).grows.isPrefix
        refine ⟨fun _ => (hpiece hfits).before hrest, fun hnot => absurd ?_ hnot⟩
        exact ⟨Or.inr hav, Or.inl ⟨hbuf, hfits⟩⟩
      · obtain ⟨b, hempty, heq⟩ := hdrop hfits
        rw [heq] at hclose ⊢
        obtain ⟨hspeaks, hmute⟩ := hclose
        have hclose : SpeaksIff _ c _ := ⟨hspeaks, hmute⟩
        refine hclose.congr ?_
        simp [TCB.SendsBuffered, hbuf, hav, hfits, hempty]

end Conn

namespace TCB

/-- The acknowledgement is one more of a number that was acknowledged, with something in the
queue: `check_dup_ack` counts it. -/
def CountsDup (t : TCB σ) (ackNum : BitVec 32) : Prop :=
  t.retransmitQueue ≠ [] ∧ ackNum = t.sndUna

/-- It is the third, outside fast recovery. -/
def ThirdDup (t : TCB σ) (ackNum : BitVec 32) : Prop :=
  t.CountsDup ackNum ∧ t.congestionControl.any (·.inFastRecovery) = false ∧ t.dupAckCount + 1 = 3

instance (t : TCB σ) (ackNum : BitVec 32) : Decidable (t.CountsDup ackNum) :=
  inferInstanceAs (Decidable (_ ∧ _))

instance (t : TCB σ) (ackNum : BitVec 32) : Decidable (t.ThirdDup ackNum) :=
  inferInstanceAs (Decidable (_ ∧ _))

/-- The congestion controller behind `check_dup_ack`. -/
def controlBehindDup (t : TCB σ) (ackNum : BitVec 32) : Option (CongestionControl σ) :=
  if t.ThirdDup ackNum then t.congestionControl.map (·.onLoss 0)
  else if t.CountsDup ackNum ∧ t.congestionControl.any (·.inFastRecovery) = true then
    t.congestionControl.map (·.renoDupAck)
  else t.congestionControl

/-- **`process_ack` sends something**: the head of the queue once more, or what the window
leaves room for. -/
def AnswersAck (env : Env) (ackNum : BitVec 32) (window : UInt16) (t : TCB σ) : Prop :=
  (t.ThirdDup ackNum ∧ ∃ e ∈ t.retransmitQueue.head?, e.data ≠ []) ∨
    if seqGt ackNum t.sndUna then
      SendsBuffered { t with
        sndWnd := window.toNat
        sndUna := ackNum
        congestionControl := t.congestionControl.map
          (·.onAck (UInt32.ofNat (ackNum - t.sndUna).toNat) t.srttUs env.now) }
    else
      (t.sndWnd = 0 ∧ 0 < window) ∧ SendsBuffered { t with
        sndWnd := window.toNat
        congestionControl := t.controlBehindDup ackNum }

/-- What `send_buffered_data` goes by. -/
theorem SendsBuffered.congr {t t' : TCB σ} (hbuf : t'.sendBuffer = t.sendBuffer)
    (hid : t'.toTCBIdentity = t.toTCBIdentity) (huna : t'.sndUna = t.sndUna)
    (hnxt : t'.sndNxt = t.sndNxt) (hwnd : t'.sndWnd = t.sndWnd)
    (hcc : t'.congestionControl = t.congestionControl)
    (hpend : t'.closePending = t.closePending) (hstate : t'.state = t.state) :
    t'.SendsBuffered ↔ t.SendsBuffered := by
  have hav : t'.availableWindow = t.availableWindow := by
    rw [availableWindow, availableWindow, effectiveWindow, effectiveWindow, inFlight, inFlight,
      huna, hnxt, hwnd, hcc]
  rw [SendsBuffered, SendsBuffered, PieceFits, PieceFits, hav, hbuf, hid, hpend, hstate]

end TCB

namespace Conn

/-- **`check_dup_ack`.** -/
theorem speaks_checkDupAck (c : Conn σ) (ackNum : BitVec 32) (hentries : ∀ e ∈ c.tcb.retransmitQueue,
    e.data.length ≤ tcpMssMax) :
    SpeaksIff (c.tcb.ThirdDup ackNum ∧ ∃ e ∈ c.tcb.retransmitQueue.head?, e.data ≠ []) c
      (c.checkDupAck ackNum) ∧
    (c.checkDupAck ackNum).tcb.congestionControl = c.tcb.controlBehindDup ackNum := by
  rw [checkDupAck, TCB.controlBehindDup]
  cases hq : c.tcb.retransmitQueue with
  | nil =>
    have hnone : ¬ c.tcb.CountsDup ackNum := fun h => h.1 hq
    rw [if_neg fun h : c.tcb.ThirdDup ackNum => hnone h.1, if_neg fun h => hnone h.1]
    exact ⟨.silent (fun h => hnone h.1.1) rfl, rfl⟩
  | cons entry rest =>
    dsimp only
    by_cases hnum : ackNum = c.tcb.sndUna
    · have hcounts : c.tcb.CountsDup ackNum := ⟨by rw [hq]; exact List.cons_ne_nil _ _, hnum⟩
      rw [if_neg (not_not.mpr hnum)]
      cases hrec : c.tcb.congestionControl.any (·.inFastRecovery) with
      | true =>
        have hnot : ¬ c.tcb.ThirdDup ackNum := fun h => absurd (hrec.symm.trans h.2.1) (by decide)
        rw [if_pos rfl, if_neg hnot, if_pos ⟨hcounts, rfl⟩]
        exact ⟨.silent (fun h => hnot h.1) rfl, rfl⟩
      | false =>
        rw [if_neg Bool.false_ne_true]
        by_cases hthird : c.tcb.dupAckCount + 1 = 3
        · have hdup : c.tcb.ThirdDup ackNum := ⟨hcounts, hrec, hthird⟩
          rw [if_pos hthird, if_pos hdup]
          by_cases hdata : 0 < entry.data.length
          · rw [if_pos hdata]
            have hlen : (entry.data.take c.tcb.options.mss.toNat).length ≤ tcpMssMax :=
              Nat.le_trans (List.length_take_le' ..)
                (hentries entry (hq ▸ List.mem_cons_self ..))
            have hraw := (speaks_rawSend TCPFlags.ack (by decide) entry.seqStart
              (entry.data.take c.tcb.options.mss.toNat)
              { c with tcb := { c.tcb with
                packetsLostPeriod := c.tcb.packetsLostPeriod + 1
                congestionControl := c.tcb.congestionControl.map (·.onLoss 0)
                dupAckCount := 0 } }).speaks hlen
            refine ⟨⟨fun _ => hraw, fun hnot => absurd ?_ hnot⟩, by rw [rawSend_tcb]⟩
            exact ⟨hdup, entry, rfl, List.length_pos_iff_ne_nil.mp hdata⟩
          · rw [if_neg hdata]
            refine ⟨.silent ?_ rfl, rfl⟩
            rintro ⟨-, e, he, hne⟩
            cases he
            exact hdata (List.length_pos_iff_ne_nil.mpr hne)
        · rw [if_neg hthird, if_neg fun h : c.tcb.ThirdDup ackNum => hthird h.2.2,
            if_neg fun h => absurd h.2 Bool.false_ne_true]
          exact ⟨.silent (fun h => hthird h.1.2.2) rfl, rfl⟩
    · have hnone : ¬ c.tcb.CountsDup ackNum := fun h => hnum h.2
      rw [if_pos hnum, if_neg fun h : c.tcb.ThirdDup ackNum => hnone h.1,
        if_neg fun h => hnone h.1]
      exact ⟨.silent (fun h => hnone h.1.1) rfl, rfl⟩

theorem mute_sample (env : Env) (c : Conn σ) :
    Grows (Event.Mute c.ptr) c.trace (c.sample env).trace := by
  rw [sample]
  dsimp only
  split
  · exact .single nofun
  · exact .refl _

/-- **`process_ack` speaks exactly if it has something to send.** -/
theorem speaks_processAck (env : Env) (ackNum : BitVec 32) (window : UInt16) (c : Conn σ)
    (hentries : ∀ e ∈ c.tcb.retransmitQueue, e.data.length ≤ tcpMssMax)
    (hs : c.tcb.state ≠ .listen) :
    SpeaksIff (c.tcb.AnswersAck env ackNum window) c (c.processAck env ackNum window) := by
  rw [processAck]
  dsimp only
  generalize hc₀ : ({ c with tcb := { c.tcb with sndWnd := window.toNat } } : Conn σ) = c₀
  obtain ⟨hspeaks, hcontrol⟩ := speaks_checkDupAck c₀ ackNum (by rw [← hc₀]; exact hentries)
  have hpath := path_checkDupAck (x := none) c₀ ackNum
  obtain ⟨cc, sampling, dup, htcb⟩ := checkDupAck_tcb c₀ ackNum
  have hptr : (c₀.checkDupAck ackNum).ptr = c.ptr := by
    rw [hpath.ptr, ← hc₀]
  have hle : c.trace <+: (c₀.checkDupAck ackNum).trace := by
    have hgrows := hpath.grows.isPrefix
    rw [← hc₀] at hgrows ⊢
    exact hgrows
  have hdup : SpeaksIff (c.tcb.ThirdDup ackNum ∧
      ∃ e ∈ c.tcb.retransmitQueue.head?, e.data ≠ []) c (c₀.checkDupAck ackNum) := by
    obtain ⟨hspeaks, hmute⟩ := hspeaks
    rw [← hc₀] at hspeaks hmute ⊢
    exact ⟨hspeaks, hmute⟩
  have hcc : cc = c.tcb.controlBehindDup ackNum := by
    rw [htcb, ← hc₀] at hcontrol
    exact hcontrol
  subst hcc
  generalize c₀.checkDupAck ackNum = c₁ at hptr hle hdup htcb
  have hlisten : c₁.tcb.state ≠ .listen := by
    rw [htcb, ← hc₀]
    exact hs
  have hrcv : c₁.tcb.rcvNxt = c.tcb.rcvNxt := by rw [htcb, ← hc₀]
  have huna : c₁.tcb.sndUna = c.tcb.sndUna := by rw [htcb, ← hc₀]
  rw [huna, TCB.AnswersAck]
  cases hgt : seqGt ackNum c.tcb.sndUna with
  | false =>
    rw [Bool.not_false, if_pos rfl, if_neg Bool.false_ne_true]
    split
    · rename_i hopen
      refine (hdup.trans (speaks_sendBufferedData env c₁) hptr hrcv hle
        (path_sendBufferedData (x := none) env c₁ hlisten).grows.isPrefix).congr ?_
      rw [and_iff_right hopen]
      refine or_congr_right (TCB.SendsBuffered.congr ?_ ?_ ?_ ?_ ?_ ?_ ?_ ?_) <;> rw [htcb, ← hc₀]
    · rename_i hshut
      refine hdup.congr ?_
      rw [or_iff_left fun h => hshut h.1]
  | true =>
    rw [Bool.not_true, if_neg Bool.false_ne_true, if_pos rfl]
    have hne : ackNum ≠ c.tcb.sndUna := by
      rintro rfl
      rw [seqGt_self] at hgt
      cases hgt
    have hsame : c.tcb.controlBehindDup ackNum = c.tcb.congestionControl := by
      rw [TCB.controlBehindDup, if_neg fun h => hne h.1.2, if_neg fun h => hne h.1.2]
    have hsend := speaks_sendBufferedData env (c₁.advance env ackNum)
    have hsendLe :=
      (path_sendBufferedData (x := none) env (c₁.advance env ackNum) hlisten).grows.isPrefix
    have hsample := mute_sample env ((c₁.advance env ackNum).sendBufferedData env)
    rw [(path_sendBufferedData (x := none) env (c₁.advance env ackNum) hlisten).ptr] at hsample
    have hall : SpeaksIff (c₁.advance env ackNum).tcb.SendsBuffered (c₁.advance env ackNum)
        (((c₁.advance env ackNum).sendBufferedData env).sample env) :=
      ⟨fun h => (hsend.speaks h).before hsample.isPrefix, fun h => (hsend.mute h).trans hsample⟩
    have hadvance : SpeaksIff (c₁.advance env ackNum).tcb.SendsBuffered c₁
        (((c₁.advance env ackNum).sendBufferedData env).sample env) := ⟨hall.speaks, hall.mute⟩
    refine (hdup.trans hadvance hptr hrcv hle (hsendLe.trans hsample.isPrefix)).congr ?_
    refine or_congr_right (TCB.SendsBuffered.congr ?_ ?_ ?_ ?_ ?_ ?_ ?_ ?_) <;>
      simp only [advance, htcb, ← hc₀, hsame]

end Conn

end NeuStack
