import NeuStack.AckHistory
import NeuStack.Measurement
import NeuStack.SendManager
import NeuStack.SendWindow

/-! # Acknowledgements out of range

`process_ack` moves `snd_una` to whatever number looks newer, and takes over the window before it
looks.  An acknowledgement outside of what is in flight leaves the send side alone exactly if it
is an old one and announces the window there is (`Acknowledgement.leaves_iff`); where all are so,
`snd_una` never passes `snd_nxt` (`unacceptable_iff`).
-/
namespace NeuStack
variable {σ : Type}

/-! ## How much is in flight -/

/-- At most `B` numbers are in flight, and the peer's window has 16 bits. -/
structure TCB.Fits (B : Nat) (t : TCB σ) : Prop where
  inFlight : t.inFlight ≤ B
  window : t.sndWnd ≤ 65535

namespace TCB.Fits
variable {B B' : Nat} {t t' : TCB σ}

theorem mono (h : t.Fits B) (hB : B ≤ B') : t.Fits B' := ⟨h.inFlight.trans hB, h.window⟩

theorem congr (h : t.Fits B) (huna : t'.sndUna = t.sndUna) (hnxt : t'.sndNxt = t.sndNxt)
    (hwnd : t'.sndWnd = t.sndWnd) : t'.Fits B := by
  refine ⟨?_, hwnd.trans_le h.window⟩
  rw [TCB.inFlight, huna, hnxt]
  exact h.inFlight

theorem seqLe (h : t.Fits B) (hB : B < 2 ^ 31) : seqLe t.sndUna t.sndNxt = true := by
  have hle := h.inFlight
  rw [TCB.inFlight] at hle
  rw [seqLe_iff]
  bv_omega

end TCB.Fits

namespace Conn
variable [ICongestionControl σ] {c : Conn σ} {B : Nat}

/-- New data stays within the window. -/
theorem fits_sendData (env : Env) {data : List UInt8} (h : c.tcb.Fits B) (hB : 65535 ≤ B)
    (hfit : data.length ≤ c.tcb.availableWindow) :
    (c.sendSegment env (TCPFlags.ack ||| TCPFlags.psh) data).tcb.Fits B := by
  refine ⟨?_, (sendSegment_sndWnd ..).trans_le h.window⟩
  by_cases hlong : tcpMssMax < data.length
  · rw [sendSegment_long env hlong]
    exact h.inFlight
  · rcases Nat.eq_zero_or_pos data.length with hzero | hpos
    · rw [List.length_eq_zero_iff.mp hzero, sendSegment_push_nil]
      have hempty : TCB.Fits B { c.tcb with sndNxt := c.tcb.sndNxt + BitVec.ofNat 32 0 } :=
        h.congr rfl (BitVec.add_zero _) rfl
      exact hempty.inFlight
    · have hwindow := inWindow_sendSegment env hpos (Nat.not_lt.mp hlong) hfit
      rw [InWindow, TCB.effectiveWindow, sendSegment_sndWnd] at hwindow
      exact (hwindow.trans (Nat.min_le_right ..)).trans (h.window.trans hB)

theorem fits_drainStep (env : Env) (h : c.tcb.Fits B) (hB : 65535 ≤ B) :
    (c.drainStep env).tcb.Fits B := by
  have hfit : (c.tcb.sendBuffer.peekContiguous.take (chunk c.tcb)).length ≤
      c.tcb.availableWindow := by
    refine (List.length_take_le ..).trans ?_
    exact (Nat.min_le_left ..).trans (Nat.min_le_right ..)
  have hsent := fits_sendData env h hB hfit
  rw [drainStep]
  exact hsent.congr rfl rfl rfl

theorem fits_drain (env : Env) (h : c.tcb.Fits B) (hB : 65535 ≤ B) (fuel : Nat) :
    (c.drain env fuel).tcb.Fits B :=
  drain_induction (motive := fun c' => c'.tcb.Fits B) env
    (fun _ hc' => fits_drainStep env hc' hB) fuel h

omit [ICongestionControl σ] in
/-- A FIN takes one number. -/
theorem fits_sendFin (env : Env) (h : c.tcb.Fits B) :
    (c.sendSegment env (TCPFlags.fin ||| TCPFlags.ack) []).tcb.Fits (B + 1) := by
  have hle := h.inFlight
  rw [sendSegment_fin]
  refine ⟨?_, h.window⟩
  show ((c.tcb.sndNxt + 1#32) - c.tcb.sndUna).toNat ≤ B + 1
  rw [TCB.inFlight] at hle
  bv_omega

/-- **What a function that sends leaves**: the state and the bound, or a FIN is out. -/
def Sends (B : Nat) (c c' : Conn σ) : Prop :=
  c'.tcb.state = c.tcb.state ∧ c'.tcb.Fits B ∨
    c.tcb.state.canSend = true ∧ c'.tcb.state = c.tcb.state.afterFin ∧ c'.tcb.Fits (B + 1)

theorem sends_sendBufferedData (env : Env) (h : c.tcb.Fits B) (hB : 65535 ≤ B) :
    c.Sends B (c.sendBufferedData env) := by
  have hdrained := fits_drain env h hB c.tcb.sendBuffer.size
  have hstate : (c.drain env c.tcb.sendBuffer.size).updateRcvWnd.tcb.state = c.tcb.state :=
    drain_state env c _
  have hfits : (c.drain env c.tcb.sendBuffer.size).updateRcvWnd.tcb.Fits B :=
    hdrained.congr rfl rfl rfl
  rw [sendBufferedData, completeClose]
  generalize (c.drain env c.tcb.sendBuffer.size).updateRcvWnd = d at hstate hfits
  rw [Sends, ← hstate]
  split
  · dsimp only
    split
    · rename_i hcan
      refine Or.inr ⟨hcan, rfl, ?_⟩
      exact (fits_sendFin env (c := { d with tcb := { d.tcb with closePending := false } })
        (hfits.congr rfl rfl rfl)).congr rfl rfl rfl
    · exact Or.inl ⟨rfl, hfits.congr rfl rfl rfl⟩
  · exact Or.inl ⟨rfl, hfits⟩

theorem sends_send (env : Env) (data : List UInt8) (h : c.tcb.Fits B) (hB : 65535 ≤ B) :
    c.Sends B (c.send env data).2 := by
  have hsame {c' : Conn σ} (hstate : c'.tcb.state = c.tcb.state) (hfits : c'.tcb.Fits B) :
      c.Sends B c' := Or.inl ⟨hstate, hfits⟩
  rw [send]
  split
  · exact hsame rfl h
  split
  · exact hsame rfl h
  split
  · exact hsame rfl h
  dsimp only
  generalize min data.length c.tcb.sendBuffer.available = accepted
  have hbuffered : c.Sends B ((c.log (.accepted c.ptr (data.take accepted))).buffer
      (data.take accepted)) := hsame rfl (h.congr rfl rfl rfl)
  split
  · exact hbuffered
  split
  · exact hbuffered
  split
  · exact hbuffered
  generalize hn : min (min accepted _) _ = n
  have hfit : ((data.take accepted).take n).length ≤
      (c.log (.accepted c.ptr (data.take accepted))).tcb.availableWindow := by
    refine (List.length_take_le ..).trans ?_
    rw [← hn]
    exact (Nat.min_le_left ..).trans (Nat.min_le_right ..)
  have hsent := fits_sendData env (c := c.log (.accepted c.ptr (data.take accepted)))
    (h.congr rfl rfl rfl) hB hfit
  have hstate := sendSegment_state env (TCPFlags.ack ||| TCPFlags.psh) ((data.take accepted).take n)
    (c.log (.accepted c.ptr (data.take accepted)))
  generalize (c.log (.accepted c.ptr (data.take accepted))).sendSegment env
    (TCPFlags.ack ||| TCPFlags.psh) ((data.take accepted).take n) = c₁ at hsent hstate ⊢
  have hrest : (if n < accepted then c₁.buffer ((data.take accepted).drop n) else c₁).tcb.state =
      c.tcb.state ∧
      (if n < accepted then c₁.buffer ((data.take accepted).drop n) else c₁).tcb.Fits B := by
    split
    · exact ⟨hstate, hsent.congr rfl rfl rfl⟩
    · exact ⟨hstate, hsent⟩
  generalize (if n < accepted then c₁.buffer ((data.take accepted).drop n) else c₁) = c₂ at hrest ⊢
  dsimp only
  split
  · have hdrained := sends_sendBufferedData env hrest.2 hB
    rwa [Sends, hrest.1] at hdrained
  · exact hsame hrest.1 hrest.2

/-- `close()` can send two FINs: the one that waited for the buffer, and its own. -/
theorem fits_finish (env : Env) (h : c.tcb.Fits B) (hB : 65535 ≤ B) :
    (c.finish env).tcb.state = c.tcb.state ∧ (c.finish env).tcb.Fits B ∨
      (c.finish env).tcb.state = c.tcb.state.afterFin ∧ (c.finish env).tcb.Fits (B + 2) := by
  have hdrained := sends_sendBufferedData env h hB
  have hle : (c.sendBufferedData env).tcb.Fits (B + 1) := by
    rcases hdrained with ⟨-, hfits⟩ | ⟨-, -, hfits⟩
    · exact hfits.mono (Nat.le_succ B)
    · exact hfits
  rw [finish]
  dsimp only
  split
  · rcases hdrained with ⟨hstate, hfits⟩ | ⟨-, hstate, hfits⟩
    · exact Or.inl ⟨hstate, hfits.congr rfl rfl rfl⟩
    · exact Or.inr ⟨hstate, (hfits.mono (Nat.le_succ _)).congr rfl rfl rfl⟩
  · refine Or.inr ⟨rfl, ?_⟩
    have hlogged : (((c.sendBufferedData env).log (.finishing (c.sendBufferedData env).ptr
        c.tcb.state (c.sendBufferedData env).tcb.state)).tcb).Fits (B + 1) :=
      hle.congr rfl rfl rfl
    exact (fits_sendFin env hlogged).congr rfl rfl rfl

end Conn

/-! ## The order of `snd_una` and `snd_nxt` -/

/-- What the send side counts with. -/
def TCB.sendNumbers (t : TCB σ) : TCPState × BitVec 32 × BitVec 32 × BitVec 32 × Nat :=
  (t.state, t.iss, t.sndUna, t.sndNxt, t.sndWnd)

/-- **`snd_una` has not passed `snd_nxt`**, and a SYN that waits for its SYN+ACK is in flight. -/
structure TCB.Ordered (t : TCB σ) : Prop where
  fits : t.Fits t.state.reserve
  syn : t.state = .synSent → (t.iss + 1 - t.sndUna).toNat ≤ t.inFlight

theorem TCPState.Turns.reserve_le {s next : TCPState} (h : s.Turns next) :
    s.reserve ≤ next.reserve := by
  cases h with
  | closed => exact s.reserve_le
  | reopened => decide
  | established hs => rcases hs with rfl | rfl <;> decide
  | fin hedge => cases hedge <;> decide
  | acked hedge => cases hedge <;> decide

theorem TCPState.Turns.ne_synSent {s next : TCPState} (h : s.Turns next) : next ≠ .synSent := by
  cases h with
  | fin hedge => cases hedge <;> exact nofun
  | acked hedge => cases hedge <;> exact nofun
  | _ => exact nofun

theorem TCPState.afterFin_ne_synSent {s : TCPState} (h : s.canSend = true) :
    s.afterFin ≠ .synSent := by
  cases s <;> first | decide | cases h

namespace TCB.Ordered
variable {t t' : TCB σ}

theorem seqLe (h : t.Ordered) : seqLe t.sndUna t.sndNxt = true :=
  h.fits.seqLe (t.state.reserve_le.trans_lt (by decide))

theorem congr (h : t.Ordered) (heq : t'.sendNumbers = t.sendNumbers) : t'.Ordered := by
  obtain ⟨hstate, heq⟩ := Prod.mk.inj heq
  obtain ⟨hiss, heq⟩ := Prod.mk.inj heq
  obtain ⟨huna, heq⟩ := Prod.mk.inj heq
  obtain ⟨hnxt, hwnd⟩ := Prod.mk.inj heq
  refine ⟨hstate ▸ h.fits.congr huna hnxt hwnd, ?_⟩
  rw [hstate, hiss, huna, TCB.inFlight, huna, hnxt]
  exact h.syn

theorem turn (h : t.Ordered) {s : TCPState} (hs : t.state.Turns s) :
    TCB.Ordered { t with state := s } :=
  ⟨(h.fits.mono hs.reserve_le).congr rfl rfl rfl, fun hsent => absurd hsent hs.ne_synSent⟩

/-- A connection after its SYN. -/
theorem opened (hunsent : Conn.Unsent t) (now : Nat) {flags : UInt8}
    (hflags : flags = TCPFlags.syn ∨ flags = TCPFlags.syn ||| TCPFlags.ack) (s : TCPState) :
    TCB.Ordered { t.sendSyn now flags with state := s } := by
  have hspace : seqSpace flags 0 = 1 := by rcases hflags with rfl | rfl <;> rfl
  have hone : TCB.inFlight { t.sendSyn now flags with state := s } = 1 := by
    show ((t.sndNxt + BitVec.ofNat 32 (seqSpace flags 0)) - t.sndUna).toNat = 1
    rw [hspace, hunsent.sndUna, hunsent.sndNxt]
    bv_omega
  refine ⟨⟨?_, hunsent.window⟩, fun _ => ?_⟩
  · rw [hone]
    exact Nat.le_trans (by decide) s.reserve_ge
  · rw [hone]
    show (t.iss + 1 - t.sndUna).toNat ≤ 1
    rw [hunsent.sndUna]
    bv_omega

theorem new [ICongestionControl σ] (h : t.New) : t.Ordered := by
  cases h with
  | listen =>
    refine ⟨⟨?_, Nat.zero_le _⟩, nofun⟩
    show (0#32 - 0#32).toNat ≤ 65535
    decide
  | connect env m tuple onConnect =>
    exact opened (TCPConnectionManager.SendSide.unsent_connectTcb m env tuple onConnect) env.now
      (Or.inl rfl) .synSent
  | accept env m tuple listener seg =>
    exact opened (TCPConnectionManager.SendSide.unsent_acceptTcb m env tuple listener seg) env.now
      (Or.inr rfl) .synRcvd

/-- The second SYN has the number of the first. -/
theorem reopen (h : t.Ordered) (seg : TCPSegment) (now : Nat) (hs : t.state = .synSent) :
    ((TCPConnectionManager.rewind seg t).sendSyn now (TCPFlags.syn ||| TCPFlags.ack)).Ordered := by
  have hone : ((TCPConnectionManager.rewind seg t).sendSyn now
      (TCPFlags.syn ||| TCPFlags.ack)).inFlight = (t.iss + 1 - t.sndUna).toNat := rfl
  refine ⟨⟨?_, h.fits.window⟩, fun _ => hone.ge⟩
  rw [hone]
  exact (h.syn hs).trans h.fits.inFlight

end TCB.Ordered

namespace Conn
variable [ICongestionControl σ] {c c' : Conn σ}

omit [ICongestionControl σ] in
/-- A function that sends keeps the order. -/
theorem Sends.ordered (h : c.Sends c.tcb.state.reserve c')
    (hsyn : c.tcb.state = .synSent → (c'.tcb.iss + 1 - c'.tcb.sndUna).toNat ≤ c'.tcb.inFlight) :
    c'.tcb.Ordered := by
  rcases h with ⟨hstate, hfits⟩ | ⟨hcan, hstate, hfits⟩
  · exact ⟨hstate ▸ hfits, fun hs => hsyn (hstate.symm.trans hs)⟩
  · refine ⟨?_, fun hs => absurd (hstate.symm.trans hs) (TCPState.afterFin_ne_synSent hcan)⟩
    rw [hstate, TCPState.reserve_afterFin hcan]
    exact hfits.mono (Nat.le_succ _)

omit [ICongestionControl σ] in
theorem ne_synSent_of_canSend (hcan : c.tcb.state.canSend = true) : c.tcb.state ≠ .synSent :=
  TCPConnectionManager.TCPState.ne_synSent_of_isActive (TCPState.isActive_of_canSend hcan)

theorem ordered_send (env : Env) (data : List UInt8) (h : c.tcb.Ordered) :
    (c.send env data).2.tcb.Ordered := by
  cases hcan : c.tcb.state.canSend with
  | true =>
    exact (sends_send env data h.fits c.tcb.state.reserve_ge).ordered fun hs =>
      absurd hs (ne_synSent_of_canSend hcan)
  | false =>
    rw [send, hcan, Bool.not_false, if_pos rfl]
    exact h

theorem ordered_finish (env : Env) (h : c.tcb.Ordered) (hcan : c.tcb.state.canSend = true) :
    (c.finish env).tcb.Ordered := by
  rcases fits_finish env h.fits c.tcb.state.reserve_ge with ⟨hstate, hfits⟩ | ⟨hstate, hfits⟩
  · exact ⟨hstate ▸ hfits, fun hs =>
      absurd (hstate.symm.trans hs) (ne_synSent_of_canSend hcan)⟩
  · refine ⟨?_, fun hs => absurd (hstate.symm.trans hs) (TCPState.afterFin_ne_synSent hcan)⟩
    rw [hstate, TCPState.reserve_afterFin hcan]
    exact hfits

omit [ICongestionControl σ] in
theorem sendSegment_ack_sendNumbers (env : Env) (c : Conn σ) :
    (c.sendSegment env TCPFlags.ack []).tcb.sendNumbers = c.tcb.sendNumbers := by
  rw [sendSegment_ack]
  exact congrArg (fun nxt => (c.tcb.state, c.tcb.iss, c.tcb.sndUna, nxt, c.tcb.sndWnd))
    (BitVec.add_zero c.tcb.sndNxt)

/-- A call that is not given a segment keeps the order. -/
theorem ConnStep.ordered (h : ConnStep none c c') (ht : c.tcb.Ordered) : c'.tcb.Ordered := by
  cases h with
  | send env c data => exact ordered_send env data ht
  | finish env c hcan => exact ordered_finish env ht hcan
  | processAck env c seg hx => cases hx
  | ack env c => exact ht.congr (sendSegment_ack_sendNumbers env c)
  | acknowledgeData env c =>
    have hsent := ht.congr (sendSegment_ack_sendNumbers env c)
    rw [Conn.acknowledgeData]
    split
    · split
      · exact ht.congr rfl
      · exact hsent.congr rfl
    · exact hsent
  | updateRcvWnd c => exact ht.congr rfl
  | checkDelayedAck env c =>
    rw [Conn.checkDelayedAck]
    split
    · exact (ht.congr (sendSegment_ack_sendNumbers env c)).congr rfl
    · exact ht
  | checkZeroWindowProbe env c =>
    rw [Conn.checkZeroWindowProbe]
    split
    · split
      · exact ht.congr rfl
      · split
        · have hprobe : c.sendZeroWindowProbe.tcb.Ordered := by
            rw [sendZeroWindowProbe_tcb]
            exact ht
          exact hprobe.congr rfl
        · exact ht
    · exact ht.congr rfl
  | countRetransmit c =>
    rw [Conn.countRetransmit]
    split
    · exact ht
    · exact ht.congr rfl
  | retransmit env c =>
    rw [Conn.retransmit]
    split
    · exact ht
    · dsimp only
      split
      · rw [rawSend_tcb]
        exact ht.congr rfl
      · split
        · rw [rawSend_tcb]
          exact ht.congr rfl
        · exact ht.congr rfl

end Conn

/-- **Between two acknowledgements** the order is kept. -/
theorem TCB.Quiet.ordered [ICongestionControl σ] {t u : TCB σ} (h : TCB.Quiet t u)
    (ht : t.Ordered) : u.Ordered := by
  cases h with
  | conn h => exact h.ordered ht
  | popOoo t =>
    rw [TCPConnectionManager.popOoo]
    split
    · exact ht
    · exact ht.congr rfl
  | stash t seq data =>
    rw [TCPConnectionManager.addToOooQueue]
    split
    · exact ht
    · exact ht.congr rfl
  | reopen t seg now hs => exact ht.reopen seg now hs
  | state t s hs => exact ht.turn hs
  | _ => exact ht.congr rfl

/-! ## One acknowledgement -/

/-- What an acknowledgement is about: `snd_una`, the peer's window, the retransmission queue,
the send buffer and the congestion controller. -/
def TCB.sendSide (t : TCB σ) : BitVec 32 × Nat × List RetransmitEntry × StreamBuffer ×
    Option (CongestionControl σ) :=
  (t.sndUna, t.sndWnd, t.retransmitQueue, t.sendBuffer, t.congestionControl)

namespace Acknowledgement
variable (a : Acknowledgement σ)

/-- It acknowledges a number from `snd_una` to `snd_nxt`. -/
def InRange : Prop := (a.seg.ackNum - a.tcb.sndUna).toNat ≤ a.tcb.inFlight

/-- In range, or an old one that announces the window there is. -/
def Spared : Prop :=
  a.InRange ∨ seqGt a.seg.ackNum a.tcb.sndUna = false ∧ a.seg.window.toNat = a.tcb.sndWnd

instance : Decidable a.InRange := inferInstanceAs (Decidable (_ ≤ _))

instance : Decidable a.Spared := inferInstanceAs (Decidable (_ ∨ _))

variable [ICongestionControl σ]

/-- **`process_ack` leaves the send side as it was.** -/
def Leaves (env : Env) (p : Ptr) (tr : List Event) : Prop :=
  ((Conn.mk p a.tcb tr).processAck env a.seg.ackNum a.seg.window).tcb.sendSide = a.tcb.sendSide

end Acknowledgement

namespace Conn
variable [ICongestionControl σ] {c : Conn σ}

theorem drainStep_sndWnd (env : Env) (c : Conn σ) :
    (c.drainStep env).tcb.sndWnd = c.tcb.sndWnd := by
  rw [drainStep]
  exact sendSegment_sndWnd ..

theorem sendBufferedData_sndWnd (env : Env) (c : Conn σ) :
    (c.sendBufferedData env).tcb.sndWnd = c.tcb.sndWnd := by
  have hdrained : (c.drain env c.tcb.sendBuffer.size).updateRcvWnd.tcb.sndWnd = c.tcb.sndWnd :=
    drain_induction (motive := fun c' => c'.tcb.sndWnd = c.tcb.sndWnd) env
      (fun c' hc' => (drainStep_sndWnd env c').trans hc') _ rfl
  rw [sendBufferedData, completeClose]
  generalize (c.drain env c.tcb.sendBuffer.size).updateRcvWnd = d at hdrained
  split
  · dsimp only
    split
    · exact (sendSegment_sndWnd ..).trans hdrained
    · exact hdrained
  · exact hdrained

/-- An acknowledgement of nothing new still brings its window. -/
theorem processAck_sndWnd (env : Env) {x : BitVec 32} (window : UInt16)
    (hold : seqGt x c.tcb.sndUna = false) :
    (c.processAck env x window).tcb.sndWnd = window.toNat := by
  rw [processAck]
  dsimp only
  obtain ⟨cc, sampling, dup, htcb⟩ :=
    checkDupAck_tcb ({ c with tcb := { c.tcb with sndWnd := window.toNat } } : Conn σ) x
  generalize Conn.checkDupAck x { c with tcb := { c.tcb with sndWnd := window.toNat } } = d at htcb
  rw [htcb, hold, Bool.not_false, if_pos rfl]
  split
  · rw [sendBufferedData_sndWnd, htcb]
  · rw [htcb]

end Conn

namespace Acknowledgement
variable [ICongestionControl σ] {a : Acknowledgement σ}

omit [ICongestionControl σ] in
theorem ne_sndUna (h : ¬ a.InRange) : a.seg.ackNum ≠ a.tcb.sndUna := by
  intro heq
  refine h ?_
  rw [InRange, heq, BitVec.sub_self]
  exact Nat.zero_le _

/-- **An acknowledgement out of range, exactly.** -/
theorem leaves_iff (h : ¬ a.InRange) (hs : a.tcb.state ≠ .listen) (env : Env) (p : Ptr)
    (tr : List Event) : a.Leaves env p tr ↔ a.Spared := by
  constructor
  · intro hleaves
    obtain ⟨huna, hleaves⟩ := Prod.mk.inj hleaves
    obtain ⟨hwnd, -⟩ := Prod.mk.inj hleaves
    have hmoved := Conn.processAck_sndUna env ⟨p, a.tcb, tr⟩ a.seg.ackNum a.seg.window hs
    have hold : seqGt a.seg.ackNum a.tcb.sndUna = false := by
      rw [← Bool.not_eq_true]
      intro hgt
      rw [if_pos hgt] at hmoved
      exact ne_sndUna h (hmoved.symm.trans huna)
    have hcarried := Conn.processAck_sndWnd (c := ⟨p, a.tcb, tr⟩) env a.seg.window hold
    exact Or.inr ⟨hold, hcarried.symm.trans hwnd⟩
  · rintro (hin | ⟨hold, hwnd⟩)
    · exact absurd hin h
    · have hsame : (Conn.mk p a.tcb tr).processAck env a.seg.ackNum a.seg.window =
          ⟨p, { a.tcb with sndWnd := a.seg.window.toNat }, tr⟩ := by
        rw [Conn.processAck]
        dsimp only
        rw [Conn.checkDupAck_of_ne (ne_sndUna h)]
        dsimp only
        rw [hold, Bool.not_false, if_pos rfl, ← hwnd, if_neg]
        rintro ⟨hzero, hpos⟩
        rw [UInt16.lt_iff_toNat_lt, hzero] at hpos
        exact Nat.lt_irrefl _ hpos
      rw [Leaves, hsame, TCB.sendSide, TCB.sendSide, hwnd]

omit [ICongestionControl σ] in
/-- What a handshake processes is in range, and so is what is spared of the rest. -/
theorem inRange_of_advances (h : a.tcb.Ordered) (htaken : a.Taken)
    (hspared : a.tcb.state.isActive = true → a.Spared)
    (hgt : seqGt a.seg.ackNum a.tcb.sndUna = true) : a.InRange := by
  rcases htaken with hact | ⟨hs, hnum⟩ | ⟨-, -, hle⟩
  · rcases hspared hact with hin | ⟨hold, -⟩
    · exact hin
    · rw [hold] at hgt
      cases hgt
  · rw [InRange, hnum]
    exact h.syn hs
  · -- both distances from `snd_una` are below half of the space
    have hfits := h.fits.inFlight.trans a.tcb.state.reserve_le
    rw [← Bool.not_eq_true, seqGt_iff] at hle
    rw [seqGt_iff] at hgt
    rw [TCB.inFlight] at hfits
    rw [InRange, TCB.inFlight]
    bv_omega

end Acknowledgement

namespace Conn
variable [ICongestionControl σ] {c : Conn σ} {B : Nat}

/-- **`process_ack`**, of an acknowledgement that is in range or nothing new. -/
theorem sends_processAck (env : Env) {x : BitVec 32} (window : UInt16) (h : c.tcb.Fits B)
    (hB : 65535 ≤ B)
    (hin : seqGt x c.tcb.sndUna = true → (x - c.tcb.sndUna).toNat ≤ c.tcb.inFlight) :
    c.Sends B (c.processAck env x window) := by
  rw [processAck]
  dsimp only
  obtain ⟨cc, sampling, dup, htcb⟩ :=
    checkDupAck_tcb ({ c with tcb := { c.tcb with sndWnd := window.toNat } } : Conn σ) x
  generalize Conn.checkDupAck x { c with tcb := { c.tcb with sndWnd := window.toNat } } = d at htcb
  have hwnd : window.toNat ≤ 65535 := Nat.le_of_lt_succ window.toNat_lt
  have hstate : d.tcb.state = c.tcb.state := by rw [htcb]
  have huna : d.tcb.sndUna = c.tcb.sndUna := by rw [htcb]
  have hfits : d.tcb.Fits B := by
    rw [htcb]
    exact ⟨h.inFlight, hwnd⟩
  rw [Sends, ← hstate, huna]
  split
  · split
    · exact sends_sendBufferedData env hfits hB
    · exact Or.inl ⟨rfl, hfits⟩
  · rename_i hgt
    have hgt : seqGt x c.tcb.sndUna = true := by simpa using hgt
    have hadvanced : (d.advance env x).tcb.Fits B := by
      refine ⟨?_, hfits.window⟩
      have hle := hin hgt
      have hflight := hfits.inFlight
      rw [TCB.inFlight, huna] at hflight
      rw [TCB.inFlight, show c.tcb.sndNxt = d.tcb.sndNxt by rw [htcb]] at hle
      show (d.tcb.sndNxt - x).toNat ≤ B
      bv_omega
    have hdrained := sends_sendBufferedData env hadvanced hB
    obtain ⟨sampling', hsampled⟩ := sample_tcb env ((d.advance env x).sendBufferedData env)
    rw [hsampled]
    rcases hdrained with ⟨hs, hfits⟩ | ⟨hcan, hs, hfits⟩
    · exact Or.inl ⟨hs, hfits.congr rfl rfl rfl⟩
    · exact Or.inr ⟨hcan, hs, hfits.congr rfl rfl rfl⟩

end Conn

/-- **An acknowledgement that is spared keeps the order.** -/
theorem Acknowledgement.ordered [ICongestionControl σ] (a : Acknowledgement σ) (h : a.tcb.Ordered)
    (htaken : a.Taken) (hspared : a.tcb.state.isActive = true → a.Spared) (env : Env) (p : Ptr)
    (tr : List Event) :
    ((Conn.mk p a.tcb tr).processAck env a.seg.ackNum a.seg.window).tcb.Ordered := by
  have hsends := Conn.sends_processAck (c := ⟨p, a.tcb, tr⟩) env a.seg.window h.fits
    a.tcb.state.reserve_ge (a.inRange_of_advances h htaken hspared)
  refine hsends.ordered fun hs => ?_
  have hs : a.tcb.state = .synSent := hs
  have hiss := (Conn.Own.processAck env a.seg.ackNum a.seg.window ⟨p, a.tcb, tr⟩).iss
  have huna := Conn.processAck_sndUna env ⟨p, a.tcb, tr⟩ a.seg.ackNum a.seg.window
    (by rw [hs]; exact nofun)
  -- the number that the SYN+ACK has to bring is `snd_una` by now
  have hlast : ((Conn.mk p a.tcb tr).processAck env a.seg.ackNum a.seg.window).tcb.sndUna =
      a.tcb.iss + 1 := by
    have hnum : a.seg.ackNum = a.tcb.iss + 1 := by
      rcases htaken with hact | ⟨-, hnum⟩ | ⟨hs', -⟩
      · rw [hs] at hact
        cases hact
      · exact hnum
      · rw [hs] at hs'
        cases hs'
    have hle := (h.syn hs).trans (h.fits.inFlight.trans a.tcb.state.reserve_le)
    rw [huna, hnum]
    split
    · rfl
    · rename_i hold
      rw [seqGt_iff] at hold
      show a.tcb.sndUna = a.tcb.iss + 1
      bv_omega
  rw [hiss, hlast, BitVec.sub_self]
  exact Nat.zero_le _

/-! ## A run -/

namespace TCPConnectionManager
variable [ICongestionControl σ]

/-- What the connections that are up process of a history is spared. -/
def AllSpared (as : List (Acknowledgement σ)) : Prop :=
  ∀ a ∈ as, a.tcb.state.isActive = true → a.Spared

theorem recorded_ordered : Recorded (σ := σ) (fun as t => AllSpared as → t.Ordered)
    (fun _ => True) where
  nil := trivial
  new _ ht _ := .new ht
  quiet _ _ _ hquiet h hall := hquiet.ordered (h hall)
  ack as t seg env p tr h htaken hall := by
    have hlast := hall ⟨t, seg⟩ (List.mem_append_right _ (List.mem_singleton.mpr rfl))
    exact Acknowledgement.ordered ⟨t, seg⟩
      (h fun a ha => hall a (List.mem_append_left _ ha)) htaken hlast env p tr
  history _ _ _ := trivial

/-- **Unacceptable acknowledgements, exactly.**  They leave the send side as it was, and
`snd_una` never passes `snd_nxt`, if and only if whatever is processed out of range is old
and announces the window there is. -/
theorem unacceptable_iff (localIp : UInt32) (p : Ptr) (xs : List (Input σ)) (env : Env)
    (tr : List Event) :
    (∀ ys t, ys <+: xs → (GuardedRun.run step (init localIp) ys).heap p = some t →
        seqLe t.sndUna t.sndNxt = true) ∧
      (∀ a ∈ (init localIp).history p xs, a.tcb.state.isActive = true → ¬ a.InRange →
        a.Leaves env p tr) ↔
    ∀ a ∈ (init localIp).history p xs, a.tcb.state.isActive = true → a.Spared := by
  have hleaves {a : Acknowledgement σ} (hact : a.tcb.state.isActive = true) (h : ¬ a.InRange) :
      a.Leaves env p tr ↔ a.Spared :=
    a.leaves_iff h (TCPState.ne_listen_of_isActive hact) env p tr
  constructor
  · rintro ⟨-, hall⟩ a ha hact
    by_cases hin : a.InRange
    · exact Or.inl hin
    · exact (hleaves hact hin).mp (hall a ha hact hin)
  · intro hall
    refine ⟨fun ys t hys ht => ?_, fun a ha hact hin => (hleaves hact hin).mpr (hall a ha hact)⟩
    obtain ⟨zs, rfl⟩ := hys
    rw [history_append] at hall
    exact ((recorded_ordered.run localIp p ys).2 t ht fun a ha =>
      hall a (List.mem_append_left _ ha)).seqLe

/-- A peer acknowledges number 100 when only the SYN is sent. -/
def overshooting : List (Input (TCPCubic Unit)) :=
  [⟨.silent 0 0, .call (.setDefaultOptions { recvBufferSize := 16, sendBufferSize := 16 })⟩,
    ⟨.silent 0 0, .call (.connect 0x0a000002 80 5000 none)⟩,
    ⟨.silent 1 0, .segment ⟨0x0a000002, 0x0a000001, 80, 5000, 0, 1,
      TCPFlags.syn ||| TCPFlags.ack, 65535, []⟩⟩,
    ⟨.silent 2 0, .segment ⟨0x0a000002, 0x0a000001, 80, 5000, 1, 100, TCPFlags.ack, 65535, []⟩⟩]

/-- `snd_una` passes `snd_nxt`, and the acknowledgement out of range has moved it. -/
theorem overshooting_passes :
    (∃ t, (GuardedRun.run step (init 0x0a000001) overshooting).heap 0 = some t ∧
        t.state = .established ∧ seqLe t.sndUna t.sndNxt = false) ∧
      ∃ a ∈ (init 0x0a000001).history 0 overshooting, a.tcb.state = .established ∧
        ¬ a.InRange ∧ ∀ env tr, ¬ a.Leaves env 0 tr := by
  have hpassed : ((GuardedRun.run step (init 0x0a000001) overshooting).heap 0).any (fun t =>
      t.state == .established && !seqLe t.sndUna t.sndNxt) = true := by
    decide +kernel
  have hmoved : ((init 0x0a000001).history 0 overshooting).any (fun a =>
      a.tcb.state == .established && decide (¬ a.InRange ∧ ¬ a.Spared)) = true := by
    decide +kernel
  constructor
  · obtain ⟨t, ht, hboth⟩ := (Option.any_eq_true ..).mp hpassed
    rw [Bool.and_eq_true, beq_iff_eq, Bool.not_eq_true'] at hboth
    exact ⟨t, ht, hboth⟩
  · obtain ⟨a, ha, hboth⟩ := List.any_eq_true.mp hmoved
    rw [Bool.and_eq_true, beq_iff_eq, decide_eq_true_eq] at hboth
    obtain ⟨hs, hout, hspared⟩ := hboth
    refine ⟨a, ha, hs, hout, fun env tr hleaves =>
      hspared ((a.leaves_iff hout ?_ env 0 tr).mp hleaves)⟩
    rw [hs]
    exact nofun

end TCPConnectionManager
end NeuStack
