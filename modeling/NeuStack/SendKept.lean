import NeuStack.SendFunctions
import NeuStack.ConnectionManager
import Mathlib.Data.List.Induction

/-! # What every function keeps of the send side

`Tidy` is the invariant of one connection: the layout of its stream, with a bound
on what is in flight that depends on the state.  A connection sends at most two
FINs from a state, its own and one that had to wait, and it comes to a state that
may send at most twice, so four numbers are kept in reserve for them.

`Kept` is what a function of one connection owes to it, and to the manager: the
address, the options and the initial number stay, what is logged is about the
connection, and it stays tidy.
-/
namespace NeuStack
variable {σ : Type}

/-- A window, and the numbers of the FINs that may have been sent by then. -/
def TCPState.reserve : TCPState → Nat
  | .listen | .synSent | .synRcvd | .established => 65535
  | .finWait1 | .finWait2 | .closeWait | .closing | .timeWait => 65537
  | .lastAck | .closed => 65539

theorem TCPState.reserve_ge (s : TCPState) : 65535 ≤ s.reserve := by
  cases s <;> decide

theorem TCPState.reserve_le (s : TCPState) : s.reserve ≤ 65539 := by
  cases s <;> decide

/-- A state that is left with a FIN has two numbers less in reserve. -/
theorem TCPState.reserve_afterFin {s : TCPState} (h : s.canSend = true) :
    s.afterFin.reserve = s.reserve + 2 := by
  cases s <;> first | rfl | cases h

/-- The states in which everything is acknowledged. -/
def TCPState.isResting : TCPState → Bool
  | .finWait2 | .timeWait => true
  | _ => false

theorem TCPState.isResting_afterFin {s : TCPState} (h : s.canSend = true) :
    s.afterFin.isResting = false := by
  cases s <;> first | rfl | cases h

/-- Everything is acknowledged, and nothing waits. -/
structure TCB.Settled (t : TCB σ) : Prop where
  acked : t.sndUna = t.sndNxt
  nothing : t.sendBuffer.contents = []
  shut : t.state.canSend = false

/-- What is known of the segment in the middle of its handler: its acknowledgement, and
that everything is acknowledged by now. -/
structure Intake where
  ack : Option (BitVec 32) := none
  finAcked : Bool := false

namespace Conn
variable {d : Intake} {c c' : Conn σ} {ack : Option (BitVec 32)} {B : Nat} {pending : List UInt8}

/-- **The send side is in order.** -/
structure Tidy (d : Intake) (c : Conn σ) : Prop where
  sound : c.Sound d.ack c.tcb.state.reserve c.tcb.sendBuffer.contents
  flushed : c.tcb.state.canSend = false → c.tcb.state ≠ .closed →
    c.tcb.sendBuffer.contents = []
  settled : d.finAcked = true ∨ c.tcb.state.isResting = true → c.tcb.Settled

/-- With everything acknowledged nothing is in flight. -/
theorem Sound.settle (h : c.Sound ack B pending) (hB : B < 2 ^ 31)
    (hacked : c.tcb.sndUna = c.tcb.sndNxt) : c.Sound ack 0 pending := by
  obtain ⟨a, hlaid⟩ := h.laid
  obtain ⟨hn, -⟩ := hlaid.inFlight hB h.sndNxt
  have hzero : c.tcb.inFlight = 0 := by
    rw [TCB.inFlight, hacked, BitVec.sub_self]
    rfl
  exact ⟨h.wire, h.mss, h.window, h.sndNxt,
    ⟨a, by omega, hlaid.inStream, hlaid.sndUna, hlaid.tiles, hlaid.drop, hlaid.used⟩, h.small⟩

theorem Sound.acked (h : c.Sound ack 0 pending) : c.tcb.sndUna = c.tcb.sndNxt := by
  obtain ⟨a, hlaid⟩ := h.laid
  have hn := hlaid.tiles.length_items
  have hroom := hlaid.room
  rw [hlaid.sndUna, h.sndNxt, show numbered c.ptr c.trace = a by omega]

/-- A function that keeps the state and the buffer, and whatever bound there is. -/
theorem Tidy.same (h : c.Tidy d) (hstate : c'.tcb.state = c.tcb.state)
    (hbuf : c'.tcb.sendBuffer = c.tcb.sendBuffer)
    (hsound : ∀ B, B < 2 ^ 31 → c.Sound d.ack B c.tcb.sendBuffer.contents →
      c'.Sound d.ack B c.tcb.sendBuffer.contents) : c'.Tidy d := by
  have hle := c.tcb.state.reserve_le
  refine ⟨?_, ?_, ?_⟩
  · rw [hstate, hbuf]
    exact hsound _ (by omega) h.sound
  · rw [hstate, hbuf]
    exact h.flushed
  · rw [hstate]
    intro hrest
    obtain ⟨hacked, hnothing, hshut⟩ := h.settled hrest
    have hsettled := hsound 0 (by omega) (h.sound.settle (by omega) hacked)
    exact ⟨hsettled.acked, by rw [hbuf]; exact hnothing, by rw [hstate]; exact hshut⟩

/-- A connection that may send is not settled. -/
theorem Tidy.not_settled (h : c.Tidy d) (hcan : c.tcb.state.canSend = true) :
    d.finAcked = false ∧ c.tcb.state.isResting = false := by
  have hnot : ¬ (d.finAcked = true ∨ c.tcb.state.isResting = true) := by
    intro hrest
    rw [(h.settled hrest).shut] at hcan
    cases hcan
  simpa using hnot

/-- A FIN is sent: two numbers are out of reserve. -/
theorem Tidy.afterFin (h : c.Tidy d) (hcan : c.tcb.state.canSend = true)
    (hstate : c'.tcb.state = c.tcb.state.afterFin) (hbuf : c'.tcb.sendBuffer.contents = [])
    (hsound : c'.Sound d.ack (c.tcb.state.reserve + 2) []) : c'.Tidy d := by
  obtain ⟨hnot, -⟩ := h.not_settled hcan
  have hrest : c.tcb.state.afterFin.isResting = false := TCPState.isResting_afterFin hcan
  refine ⟨?_, fun _ _ => hbuf, fun hr => ?_⟩
  · rw [hbuf, hstate, TCPState.reserve_afterFin hcan]
    exact hsound
  · rw [hnot, hstate, hrest] at hr
    rcases hr with hr | hr <;> cases hr

/-- Sending, in a state that may send. -/
theorem Tidy.sent (h : c.Tidy d) (hcan : c.tcb.state.canSend = true)
    (hsent : Sent d.ack c.tcb.state.reserve c.tcb.state c') : c'.Tidy d := by
  cases hsent with
  | same hstate hsound =>
    obtain ⟨hnot, hrest⟩ := h.not_settled hcan
    refine ⟨by rw [hstate]; exact hsound, fun hshut => ?_, fun hr => ?_⟩
    · rw [hstate, hcan] at hshut
      cases hshut
    · rw [hstate, hnot, hrest] at hr
      rcases hr with hr | hr <;> cases hr
  | fin _ hstate hbuf hsound => exact h.afterFin hcan hstate hbuf (hsound.mono (Nat.le_succ _))

/-- A change of state. -/
theorem Tidy.setState (h : c.Tidy d) {s : TCPState} (hreserve : c.tcb.state.reserve ≤ s.reserve)
    (hflushed : s.canSend = false → s ≠ .closed → c.tcb.sendBuffer.contents = [])
    (hsettled : d.finAcked = true ∨ s.isResting = true →
      c.tcb.sndUna = c.tcb.sndNxt ∧ c.tcb.sendBuffer.contents = [] ∧ s.canSend = false) :
    (c.setState s).Tidy d := by
  refine ⟨(h.sound.mono hreserve).setState s, hflushed, fun hrest => ?_⟩
  obtain ⟨hacked, hnothing, hshut⟩ := hsettled hrest
  exact ⟨hacked, hnothing, hshut⟩

theorem Tidy.log {ev : Event} (h : c.Tidy d) (hev : ev.Silent c.ptr) : (c.log ev).Tidy d :=
  h.same rfl rfl fun _ _ hsound => hsound.silent hev

/-- The connection is given up. -/
theorem Tidy.close (h : c.Tidy d) : (c.setState .closed).Tidy d := by
  refine h.setState c.tcb.state.reserve_le (fun _ hne => absurd rfl hne) ?_
  rintro (hfin | hrest)
  · obtain ⟨hacked, hnothing, -⟩ := h.settled (Or.inl hfin)
    exact ⟨hacked, hnothing, rfl⟩
  · cases hrest

variable [ICongestionControl σ]

theorem Tidy.send (h : c.Tidy d) (env : Env) (data : List UInt8) : (c.send env data).2.Tidy d := by
  cases hcan : c.tcb.state.canSend with
  | false =>
    unfold Conn.send
    rw [hcan, Bool.not_false, if_pos rfl]
    exact h
  | true =>
    have hle := c.tcb.state.reserve_le
    exact h.sent hcan (h.sound.send c.tcb.state.reserve_ge (by omega) env data)

theorem Tidy.finish (h : c.Tidy d) (hcan : c.tcb.state.canSend = true) (env : Env) :
    (c.finish env).Tidy d := by
  have hle := c.tcb.state.reserve_le
  rcases h.sound.finish c.tcb.state.reserve_ge (by omega) env with
    ⟨hstate, hsound⟩ | ⟨hstate, hbuf, hsound⟩
  · exact h.sent hcan (.same hstate hsound)
  · exact h.afterFin hcan hstate hbuf hsound

/-- With an empty buffer and no FIN to send, `process_ack` sends nothing. -/
theorem processAck_idle (env : Env) (x : BitVec 32) (window : UInt16)
    (hbuf : c.tcb.sendBuffer.contents = []) (hcan : c.tcb.state.canSend = false) :
    let c' := c.processAck env x window
    c'.tcb.sendBuffer = c.tcb.sendBuffer ∧ c'.tcb.sndNxt = c.tcb.sndNxt ∧
      (seqGt x c.tcb.sndUna = false → c'.tcb.sndUna = c.tcb.sndUna) := by
  unfold Conn.processAck
  dsimp only
  obtain ⟨cc, sampling, dup, htcb⟩ :=
    checkDupAck_tcb ({ c with tcb := { c.tcb with sndWnd := window.toNat } } : Conn σ) x
  generalize Conn.checkDupAck x { c with tcb := { c.tcb with sndWnd := window.toNat } } = c₁ at htcb
  have hbuf₁ : c₁.tcb.sendBuffer.contents = [] := by rw [htcb]; exact hbuf
  have hcan₁ : c₁.tcb.state.canSend = false := by rw [htcb]; exact hcan
  have huna₁ : c₁.tcb.sndUna = c.tcb.sndUna := by rw [htcb]
  split
  · split
    · obtain ⟨w, b, hidle⟩ := sendBufferedData_idle env hbuf₁ hcan₁
      rw [hidle, htcb]
      exact ⟨rfl, rfl, fun _ => rfl⟩
    · rw [htcb]
      exact ⟨rfl, rfl, fun _ => rfl⟩
  · rename_i hgt
    obtain ⟨w, b, hidle⟩ := sendBufferedData_idle (c := c₁.advance env x) env hbuf₁ hcan₁
    obtain ⟨sampling', htcb'⟩ := sample_tcb env ((c₁.advance env x).sendBufferedData env)
    rw [htcb', hidle]
    refine ⟨?_, ?_, fun hle => ?_⟩
    · show c₁.tcb.sendBuffer = c.tcb.sendBuffer
      rw [htcb]
    · show c₁.tcb.sndNxt = c.tcb.sndNxt
      rw [htcb]
    · rw [huna₁, hle] at hgt
      exact absurd rfl hgt

/-- **`process_ack`**, of the acknowledgement of the segment. -/
theorem Tidy.processAck (h : c.Tidy d) (env : Env) {x : BitVec 32} (hx : d.ack = some x)
    (window : UInt16) : (c.processAck env x window).Tidy d := by
  have hle := c.tcb.state.reserve_le
  have hsent : Sent d.ack c.tcb.state.reserve c.tcb.state (c.processAck env x window) := by
    have hsound := h.sound
    rw [hx] at hsound ⊢
    exact hsound.processAck c.tcb.state.reserve_ge (by omega) env window
  cases hcan : c.tcb.state.canSend with
  | true => exact h.sent hcan hsent
  | false =>
    rcases hsent with ⟨hstate, hsound⟩ | ⟨hcan', -⟩
    · refine ⟨by rw [hstate]; exact hsound, fun _ hne => ?_, fun hrest => ?_⟩
      · rw [hstate] at hne
        have hbuf := h.flushed hcan hne
        rw [(processAck_idle env x window hbuf hcan).1]
        exact hbuf
      · rw [hstate] at hrest
        obtain ⟨hacked, hnothing, -⟩ := h.settled hrest
        obtain ⟨hbuf, hnxt, huna⟩ := processAck_idle env x window hnothing hcan
        -- everything is acknowledged, so this is nothing new
        have hold : seqGt x c.tcb.sndUna = false := by
          rw [← Bool.not_eq_true]
          intro hgt
          obtain ⟨a, hlaid⟩ := (h.sound.settle (by omega) hacked).laid
          obtain ⟨b, hab, hbn, hxb⟩ := hlaid.used x hx hgt
          have hroom := hlaid.room
          rw [hxb, hlaid.sndUna, show b = a by omega, seqGt_self] at hgt
          cases hgt
        exact ⟨by rw [huna hold, hnxt]; exact hacked, by rw [hbuf]; exact hnothing,
          by rw [hstate]; exact hcan⟩
    · rw [hcan] at hcan'
      cases hcan'

/-! ## What a function owes -/

omit [ICongestionControl σ] in
/-- The connection stays the one it was, and logs about itself. -/
structure Own (c c' : Conn σ) : Prop where
  ptr : c'.ptr = c.ptr
  options : c'.tcb.options = c.tcb.options
  iss : c'.tcb.iss = c.tcb.iss
  grows : Grows (fun ev => ev.ptr = some c.ptr) c.trace c'.trace

/-- **What a function of a connection owes.** -/
structure Kept (d : Intake) (c c' : Conn σ) : Prop where
  own : c.Own c'
  tidy : c.Tidy d → c'.Tidy d

omit [ICongestionControl σ] in
theorem Own.trans {c'' : Conn σ} (h : c.Own c') (h' : c'.Own c'') : c.Own c'' := by
  refine ⟨h'.ptr.trans h.ptr, h'.options.trans h.options, h'.iss.trans h.iss, h.grows.trans ?_⟩
  have hgrows := h'.grows
  rw [h.ptr] at hgrows
  exact hgrows

omit [ICongestionControl σ] in
theorem Own.of_eq (hptr : c'.ptr = c.ptr) (htrace : c'.trace = c.trace)
    (hopts : c'.tcb.options = c.tcb.options) (hiss : c'.tcb.iss = c.tcb.iss) : c.Own c' :=
  ⟨hptr, hopts, hiss, by rw [htrace]; exact .refl _⟩

theorem Own.of_path {x : Option TCPSegment} (h : Path x c c') : c.Own c' := by
  refine ⟨h.ptr, ?_, ?_, h.grows.mono fun ev hev => hev.ptr⟩
  · exact congrArg TCBIdentity.options h.identity
  · exact congrArg TCBIdentity.iss h.identity

omit [ICongestionControl σ] in
theorem Own.sendSegment (env : Env) (flags : UInt8) (data : List UInt8) (c : Conn σ) :
    c.Own (c.sendSegment env flags data) := by
  have hid := sendSegment_identity env flags data c
  exact ⟨sendSegment_ptr .., congrArg TCBIdentity.options hid, congrArg TCBIdentity.iss hid,
    (grows_sendSegment env flags data c).mono fun ev hev => hev.ptr⟩

omit [ICongestionControl σ] in
theorem Own.log {ev : Event} (hev : ev.ptr = some c.ptr) : c.Own (c.log ev) :=
  ⟨rfl, rfl, rfl, .single hev⟩

omit [ICongestionControl σ] in
theorem Own.setState (c : Conn σ) (s : TCPState) : c.Own (c.setState s) :=
  ⟨rfl, rfl, rfl, .single rfl⟩

theorem Own.sendBufferedData (env : Env) (c : Conn σ) : c.Own (c.sendBufferedData env) := by
  have hdrained : c.Own ((c.drain env c.tcb.sendBuffer.size).updateRcvWnd) :=
    have hwnd : (c.drain env c.tcb.sendBuffer.size).Own
      (c.drain env c.tcb.sendBuffer.size).updateRcvWnd := .of_eq rfl rfl rfl rfl
    (Own.of_path (path_drain (x := none) env c _)).trans hwnd
  exact hdrained.trans (.of_path (path_completeClose (x := none) env _))

theorem Own.processAck (env : Env) (x : BitVec 32) (window : UInt16) (c : Conn σ) :
    c.Own (c.processAck env x window) := by
  unfold Conn.processAck
  dsimp only
  have hchecked : c.Own (Conn.checkDupAck x { c with tcb := { c.tcb with
      sndWnd := window.toNat } }) :=
    have hwnd : c.Own { c with tcb := { c.tcb with sndWnd := window.toNat } } :=
      .of_eq rfl rfl rfl rfl
    hwnd.trans (.of_path (path_checkDupAck (x := none) _ x))
  generalize Conn.checkDupAck x { c with tcb := { c.tcb with sndWnd := window.toNat } } = c₁
    at hchecked ⊢
  split
  · split
    · exact hchecked.trans (.sendBufferedData env c₁)
    · exact hchecked
  · have hadvance : c₁.Own (c₁.advance env x) := .of_eq rfl rfl rfl rfl
    exact ((hchecked.trans hadvance).trans (.sendBufferedData env _)).trans
      (.of_path (path_sample (x := none) env _))

omit [ICongestionControl σ] in
theorem Own.acknowledgeData (env : Env) (c : Conn σ) : c.Own (c.acknowledgeData env) := by
  unfold Conn.acknowledgeData
  split
  · split
    · exact .of_eq rfl rfl rfl rfl
    · exact (Own.sendSegment env _ _ c).trans (.of_eq rfl rfl rfl rfl)
  · exact .sendSegment env _ _ c

/-! ## The functions -/

namespace Kept
variable (d : Intake) (env : Env) (c : Conn σ)

omit [ICongestionControl σ] in
/-- A change of the TCB that spares the send side. -/
theorem of_eq {t : TCB σ} (hiss : t.iss = c.tcb.iss) (hopts : t.options = c.tcb.options)
    (hstate : t.state = c.tcb.state) (hwnd : t.sndWnd = c.tcb.sndWnd)
    (huna : t.sndUna = c.tcb.sndUna) (hnxt : t.sndNxt = c.tcb.sndNxt)
    (hq : t.retransmitQueue = c.tcb.retransmitQueue) (hbuf : t.sendBuffer = c.tcb.sendBuffer) :
    Kept d c ⟨c.ptr, t, c.trace⟩ :=
  ⟨.of_eq rfl rfl hopts hiss, fun h => h.same hstate hbuf fun _ _ hsound =>
    hsound.congr rfl rfl hiss hopts hwnd huna hnxt hq⟩

theorem send (data : List UInt8) : Kept d c (c.send env data).2 :=
  ⟨.of_path (path_send (x := none) env c data), fun h => h.send env data⟩

theorem finish (hcan : c.tcb.state.canSend = true) : Kept d c (c.finish env) :=
  ⟨.of_path (path_finish (x := none) env c hcan), fun h => h.finish hcan env⟩

theorem processAck {x : BitVec 32} (hx : d.ack = some x) (window : UInt16) :
    Kept d c (c.processAck env x window) :=
  ⟨.processAck env x window c, fun h => h.processAck env hx window⟩

omit [ICongestionControl σ] in
theorem bareAck : Kept d c (c.sendSegment env TCPFlags.ack []) :=
  ⟨.sendSegment env _ _ c, fun h => h.same (sendSegment_state ..) (sendSegment_sendBuffer ..)
    fun _ _ hsound => hsound.bareAck env⟩

omit [ICongestionControl σ] in
theorem updateRcvWnd : Kept d c c.updateRcvWnd :=
  of_eq d c rfl rfl rfl rfl rfl rfl rfl rfl

omit [ICongestionControl σ] in
theorem acknowledgeData : Kept d c (c.acknowledgeData env) := by
  refine ⟨.acknowledgeData env c, fun h => h.same ?_ ?_ fun _ _ hsound =>
    hsound.acknowledgeData env⟩
  all_goals
    unfold Conn.acknowledgeData
    split
    · split
      · rfl
      · simp only [sendSegment_state, sendSegment_sendBuffer]
    · simp only [sendSegment_state, sendSegment_sendBuffer]

theorem checkDelayedAck : Kept d c (c.checkDelayedAck env) := by
  refine ⟨.of_path (path_checkDelayedAck (x := none) env c), fun h => h.same ?_ ?_ fun _ _ hsound =>
    hsound.checkDelayedAck env⟩
  all_goals
    unfold Conn.checkDelayedAck
    split
    · simp only [sendSegment_state, sendSegment_sendBuffer]
    · rfl

theorem checkZeroWindowProbe : Kept d c (c.checkZeroWindowProbe env) := by
  refine ⟨.of_path (path_checkZeroWindowProbe (x := none) env c), fun h => h.same ?_ ?_
    fun _ _ hsound => hsound.checkZeroWindowProbe env⟩
  all_goals
    unfold Conn.checkZeroWindowProbe
    split
    · split
      · rfl
      · split
        · simp only [sendZeroWindowProbe_tcb]
        · rfl
    · rfl

theorem countRetransmit : Kept d c c.countRetransmit := by
  refine ⟨.of_path (path_countRetransmit (x := none) c), fun h => h.same ?_ ?_ fun _ _ hsound =>
    hsound.countRetransmit⟩
  all_goals
    unfold Conn.countRetransmit
    split <;> rfl

theorem retransmit : Kept d c (c.retransmit env) := by
  refine ⟨.of_path (path_retransmit (x := none) env c), fun h => h.same ?_ ?_
    fun _ hB hsound => hsound.retransmit hB env⟩
  all_goals
    unfold Conn.retransmit
    split
    · rfl
    · dsimp only
      split
      · rw [rawSend_tcb]
      · split
        · rw [rawSend_tcb]
        · rfl

omit [ICongestionControl σ] in
/-- The connection is given up on the path `cause`. -/
theorem ended (cause : EndCause) :
    Kept d c ((c.log (.ended c.ptr c.tcb.state cause)).setState .closed) := by
  refine ⟨(Own.log rfl).trans (.setState _ _), fun h => ?_⟩
  have hended : (Event.ended c.ptr c.tcb.state cause).Silent c.ptr := ⟨rfl, rfl, nofun⟩
  exact (h.log hended).close

end Kept

/-! ## Changes between the functions -/

omit [ICongestionControl σ] in
/-- A segment comes in whose acknowledgement is not above `snd_nxt`. -/
theorem Sound.takeAck {x : BitVec 32} (h : c.Sound none B pending) (hB : B < 2 ^ 31)
    (hle : seqGt x c.tcb.sndNxt = false) : c.Sound (some x) B pending := by
  obtain ⟨a, hlaid⟩ := h.laid
  refine ⟨h.wire, h.mss, h.window, h.sndNxt,
    ⟨a, hlaid.room, hlaid.inStream, hlaid.sndUna, hlaid.tiles, hlaid.drop, ?_⟩, h.small⟩
  rintro y hy hgt
  cases hy
  have hroom := hlaid.room
  have hn := hlaid.tiles.length_items
  have hx : x = c.tcb.iss + BitVec.ofNat 32 (a + (x - c.tcb.sndUna).toNat) := by
    rw [← SerialNumber.add_ofNat_add, ← hlaid.sndUna]
    exact SerialNumber.eq_add_sub _ x
  rw [seqGt_iff] at hgt
  generalize (x - c.tcb.sndUna).toNat = k at hx hgt
  refine ⟨a + k, by omega, ?_, hx⟩
  rw [← Bool.not_eq_true, h.sndNxt, hx] at hle
  refine Nat.not_lt.mp fun hlt => hle ?_
  exact (SerialNumber.gt_add c.tcb.iss (by omega) (by omega)).mpr hlt

omit [ICongestionControl σ] in
theorem Tidy.takeAck {x : BitVec 32} (h : Tidy {} c) (hle : seqGt x c.tcb.sndNxt = false) :
    Tidy { ack := some x } c := by
  have hreserve := c.tcb.state.reserve_le
  exact ⟨h.sound.takeAck (by omega) hle, h.flushed, h.settled⟩

omit [ICongestionControl σ] in
theorem Sound.dropAck (h : c.Sound ack B pending) : c.Sound none B pending := by
  obtain ⟨a, hroom, hin, huna, htiles, hdrop, -⟩ := h.laid
  exact ⟨h.wire, h.mss, h.window, h.sndNxt,
    ⟨a, hroom, hin, huna, htiles, hdrop, fun _ hx => nomatch hx⟩, h.small⟩

omit [ICongestionControl σ] in
/-- The segment has been processed. -/
theorem Tidy.finished (h : c.Tidy d) : Tidy {} c :=
  ⟨h.sound.dropAck, h.flushed, fun hrest => h.settled (hrest.imp_left nofun)⟩

omit [ICongestionControl σ] in
/-- Everything is acknowledged. -/
theorem Tidy.finAcked (h : c.Tidy d) (hsettled : c.tcb.Settled) :
    Tidy { d with finAcked := true } c := ⟨h.sound, h.flushed, fun _ => hsettled⟩

omit [ICongestionControl σ] in
/-- **TIME_WAIT releases the buffers**, when nothing is in them. -/
theorem Tidy.release (h : c.Tidy d) (hfin : d.finAcked = true) :
    Tidy d ⟨c.ptr, TCPConnectionManager.releaseBuffers c.tcb, c.trace⟩ := by
  obtain ⟨hacked, hnothing, hshut⟩ := h.settled (Or.inl hfin)
  have hreserve := c.tcb.state.reserve_le
  have hsound := h.sound.settle (by omega) hacked
  rw [hnothing] at hsound
  obtain ⟨a, hlaid⟩ := hsound.laid
  have hroom := hlaid.room
  have hn := hlaid.tiles.length_items
  -- nothing is in flight, so the queue is empty as it is
  have hempty : Tiling.items (c.tcb.retransmitQueue.map RetransmitEntry.block) = [] := by
    rw [← List.length_eq_zero_iff]
    omega
  have hall : a = numbered c.ptr c.trace := by omega
  have hdrop := hlaid.drop
  rw [hempty] at hdrop
  have hrelease : Sound d.ack 0 [] ⟨c.ptr, TCPConnectionManager.releaseBuffers c.tcb, c.trace⟩ :=
    ⟨hsound.wire, hsound.mss, hsound.window, hsound.sndNxt,
      ⟨a, hlaid.room, hlaid.inStream, hlaid.sndUna, hall, hdrop, hlaid.used⟩,
      fun e he => nomatch he⟩
  have hbuf : (TCPConnectionManager.releaseBuffers c.tcb).sendBuffer.contents = [] :=
    StreamBuffer.contents_ofCapacity 0
  refine ⟨?_, fun _ _ => hbuf, fun _ => ⟨hacked, hbuf, hshut⟩⟩
  rw [hbuf]
  exact hrelease.mono (Nat.zero_le _)

omit [ICongestionControl σ] in
/-- The SYN goes out once more: its number stands in the queue already. -/
theorem Sound.resyn (h : c.Sound ack B pending) {e : RetransmitEntry} {flags : UInt8}
    (hq : c.tcb.retransmitQueue = [e]) (hdata : e.data = []) (hB : B < 2 ^ 31)
    (hflags : TCPFlags.has flags TCPFlags.syn = true ∧ TCPFlags.has flags TCPFlags.fin = false) :
    (c.log (.sent c.ptr .segment (c.tcb.segment flags c.tcb.sndUna []))).Sound ack B pending := by
  obtain ⟨a, hlaid⟩ := h.laid
  have hroom := hlaid.room
  have hn := hlaid.tiles.length_items
  have hslots : (c.tcb.segment flags c.tcb.sndUna []).slots = [none] := by
    have hsyn : (c.tcb.segment flags c.tcb.sndUna []).isSyn = true := hflags.1
    have hfin : (c.tcb.segment flags c.tcb.sndUna []).isFin = false := hflags.2
    rw [TCPSegment.slots, hsyn, hfin]
    rfl
  refine h.unnumbered (s := a) (Or.inr ⟨rfl, hflags.2⟩) (by omega) (by omega) hlaid.sndUna ?_
  rw [hslots, hlaid.drop, hq]
  show [none] <+: (if e.data = [] then [none] else e.data.map some) ++ [] ++ _
  rw [if_pos hdata]
  exact ⟨_, rfl⟩

/-! ## New TCBs -/

omit [ICongestionControl σ] in
theorem silent_trace {p : Ptr} {tr : List Event} (h : ∀ ev ∈ tr, ev.ptr ≠ some p) :
    stream p tr = [] ∧ numbered p tr = 0 ∧ ∀ iss, Wire iss p tr := by
  induction tr using List.reverseRecOn with
  | nil => exact ⟨rfl, rfl, fun _ => .nil⟩
  | append_singleton tr ev ih =>
    obtain ⟨hstream, hnumbered, hwire⟩ := ih fun ev' hev' => h ev' (List.mem_append_left _ hev')
    have hev := Event.silent_of_ptr (h ev (List.mem_append_right _ (List.mem_singleton.mpr rfl)))
    refine ⟨?_, ?_, fun iss => (hwire iss).silent hev⟩
    · rw [stream_snoc, hstream, hev.slots]
      rfl
    · rw [numbered_snoc, hnumbered, hev.numbers]

/-- A TCB that nothing was sent from. -/
structure Unsent (t : TCB σ) : Prop where
  sndUna : t.sndUna = t.iss
  sndNxt : t.sndNxt = t.iss
  queue : t.retransmitQueue = []
  buffer : t.sendBuffer.contents = []
  window : t.sndWnd ≤ 65535

omit [ICongestionControl σ] in
/-- A listener. -/
theorem Tidy.listening {p : Ptr} {tr : List Event} {t : TCB σ} (h : Unsent t) (hmss : t.MssFits)
    (hs : t.state = .listen) (hsilent : ∀ ev ∈ tr, ev.ptr ≠ some p) : Tidy {} ⟨p, t, tr⟩ := by
  obtain ⟨hstream, hnumbered, hwire⟩ := silent_trace hsilent
  have hzero : t.iss = t.iss + BitVec.ofNat 32 0 := (BitVec.add_zero _).symm
  have hsound : Sound none 65535 [] ⟨p, t, tr⟩ := by
    refine ⟨hwire _, hmss, h.window, ?_, ⟨0, ?_, Nat.zero_le _, h.sndUna.trans hzero, ?_, ?_,
      fun _ hx => nomatch hx⟩, fun e he => ?_⟩
    · show t.sndNxt = t.iss + BitVec.ofNat 32 (numbered p tr)
      rw [hnumbered, h.sndNxt]
      exact hzero
    · show numbered p tr ≤ 0 + 65535
      omega
    · show Tiling.Tiles t.iss 0 (t.retransmitQueue.map _) (numbered p tr)
      rw [h.queue, hnumbered]
      rfl
    · show (stream p tr).drop 0 = Tiling.items (t.retransmitQueue.map _) ++ _
      rw [h.queue, hstream]
      rfl
    · rw [show (Conn.mk p t tr).tcb.retransmitQueue = [] from h.queue] at he
      cases he
  have hreserve : t.state.reserve = 65535 := by rw [hs]; rfl
  refine ⟨?_, fun _ _ => h.buffer, ?_⟩
  · show Sound none t.state.reserve t.sendBuffer.contents ⟨p, t, tr⟩
    rw [hreserve, h.buffer]
    exact hsound
  · rintro (hfin | hrest)
    · cases hfin
    · rw [show (Conn.mk p t tr).tcb.state = .listen from hs] at hrest
      cases hrest

omit [ICongestionControl σ] in
/-- **A new connection after its SYN.** -/
theorem Tidy.opened {p : Ptr} {tr : List Event} {t : TCB σ} (h : Unsent t) (hmss : t.MssFits)
    (hsilent : ∀ ev ∈ tr, ev.ptr ≠ some p) (now : Nat) {flags : UInt8}
    (hflags : flags = TCPFlags.syn ∨ flags = TCPFlags.syn ||| TCPFlags.ack) {s : TCPState}
    (hs : s.isOpening = true) (k : TCPTuple) :
    Tidy {} ⟨p, { t.sendSyn now flags with state := s }, tr ++ [.created p k,
      .sent p .segment (t.segment flags t.sndUna []), .moved p t.state s]⟩ := by
  obtain ⟨hstream, hnumbered, hwire⟩ := silent_trace hsilent
  have hspace : seqSpace flags 0 = 1 := by rcases hflags with rfl | rfl <;> decide
  have hsyn : TCPFlags.has flags TCPFlags.syn = true ∧ TCPFlags.has flags TCPFlags.fin = false := by
    rcases hflags with rfl | rfl <;> decide
  let e : RetransmitEntry := ⟨t.sndUna, t.sndNxt + BitVec.ofNat 32 (seqSpace flags 0), [], now,
    now + t.rtoUs.toNat, 0⟩
  have hq : (t.sendSyn now flags).retransmitQueue = [e] := by
    show t.retransmitQueue ++ [e] = [e]
    rw [h.queue]
    rfl
  have hstream' : stream p (tr ++ [.created p k]) = [none] := by
    rw [stream_snoc, hstream, Event.slots, if_pos rfl]
    rfl
  have hnumbered' : numbered p (tr ++ [.created p k]) = 1 := by
    rw [numbered_snoc, hnumbered, Event.numbers, if_pos rfl]
  have hwire' : Wire t.iss p (tr ++ [.created p k]) :=
    (hwire _).snoc fun path seg heq => by cases heq
  have hnxt : t.sndNxt + BitVec.ofNat 32 (seqSpace flags 0) = t.iss + BitVec.ofNat 32 1 := by
    rw [hspace, h.sndNxt]
  -- the TCB with its SYN in the queue, before it is on the wire
  have hsound : Sound none 65535 [] ⟨p, t.sendSyn now flags, tr ++ [.created p k]⟩ := by
    refine ⟨hwire', hmss, h.window, ?_, ⟨0, ?_, Nat.zero_le _, ?_, ?_, ?_,
      fun _ hx => by cases hx⟩, fun e' he' => ?_⟩
    · show t.sndNxt + BitVec.ofNat 32 (seqSpace flags 0) = t.iss + BitVec.ofNat 32 (numbered p _)
      rw [hnumbered', hnxt]
    · show numbered p (tr ++ [.created p k]) ≤ 0 + 65535
      omega
    · exact h.sndUna.trans (BitVec.add_zero _).symm
    · show Tiling.Tiles t.iss 0 ((t.sendSyn now flags).retransmitQueue.map _) (numbered p _)
      rw [hq, hnumbered']
      exact ⟨h.sndUna.trans (BitVec.add_zero _).symm, hnxt, rfl⟩
    · show (stream p _).drop 0 = Tiling.items ((t.sendSyn now flags).retransmitQueue.map _) ++ _
      rw [hq, hstream']
      rfl
    · rw [show (Conn.mk p (t.sendSyn now flags) (tr ++ [.created p k])).tcb.retransmitQueue = [e]
        from hq, List.mem_singleton] at he'
      rw [he']
      exact Nat.zero_le _
  have hsent := (hsound.resyn hq rfl (by omega) hsyn).setState s
  have htrace : tr ++ [.created p k, .sent p .segment (t.segment flags t.sndUna []),
      .moved p t.state s] = tr ++ [.created p k] ++
        [.sent p .segment (t.segment flags t.sndUna [])] ++ [.moved p t.state s] := by
    simp only [List.append_assoc, List.cons_append, List.nil_append]
  have hreserve : s.reserve = 65535 ∧ s.isResting = false := by
    cases s <;> first | exact ⟨rfl, rfl⟩ | cases hs
  have hbuf : (t.sendSyn now flags).sendBuffer.contents = [] := h.buffer
  rw [htrace]
  refine ⟨?_, fun _ _ => hbuf, ?_⟩
  · show Sound none s.reserve (t.sendSyn now flags).sendBuffer.contents _
    rw [hreserve.1, hbuf]
    exact hsent
  · rintro (hfin | hrest)
    · cases hfin
    · rw [show s.isResting = false from hreserve.2] at hrest
      cases hrest

end Conn

end NeuStack
