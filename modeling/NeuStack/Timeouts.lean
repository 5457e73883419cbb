import NeuStack.Retransmission
import NeuStack.AIActions

/-! # Retransmission timeouts and the controller

`TCPCubic` has an `on_timeout`, and `TCPOrca` hands it on, but `check_retransmit` looks for
a `TCPReno` and finds none: neither `create_tcb` nor the AI part installs one.  So a CUBIC
window is never what `on_timeout` would have made of it.  Until the first loss the slow
start threshold is still 65535, which is odd; from then on the window is at least two
segments (`NoTimeout`).
-/
namespace NeuStack

namespace TCPCubic
variable {φ : Type} [CubicFloat φ] {c : TCPCubic φ}

/-- `on_timeout`; `resetEpoch` is what it does to the floating-point state. -/
def onTimeout (resetEpoch : φ → φ) (c : TCPCubic φ) : TCPCubic φ :=
  { c with
    ssthresh := max (CubicFloat.scale φ c.cwnd) (2 * c.mss), cwnd := c.mss, inSlowStart := true
    float := resetEpoch c.float }

omit [CubicFloat φ] in
/-- **The reaction to a timeout**: a window of one segment, and a threshold between two
segments and the larger of these and the former window. -/
structure TimedOut (c c' : TCPCubic φ) : Prop where
  cwnd : c'.cwnd = c'.mss
  ssthresh_ge : 2 * c'.mss.toNat ≤ c'.ssthresh.toNat
  ssthresh_le : c'.ssthresh.toNat ≤ max (2 * c'.mss.toNat) c.cwnd.toNat

omit [CubicFloat φ] in
/-- The window of a controller whose `on_timeout` has never run. -/
structure NoTimeout (c : TCPCubic φ) : Prop where
  mss_ge : 536 ≤ c.mss.toNat
  mss_le : c.mss.toNat ≤ 65535
  cwnd_le : c.cwnd.toNat < 2 ^ 31 + 65535
  slow : c.inSlowStart = true → c.ssthresh = 65535 ∧
    (c.mss.toNat = 536 ∨ 10 * c.mss.toNat ≤ c.cwnd.toNat)
  steady : c.inSlowStart = false → 2 * c.mss.toNat ≤ c.cwnd.toNat

omit [CubicFloat φ] in
theorem toNat_two_mul {mss : UInt32} (h : mss.toNat ≤ 65535) : (2 * mss).toNat = 2 * mss.toNat := by
  rw [UInt32.toNat_mul, show (2 : UInt32).toNat = 2 from rfl, Nat.mod_eq_of_lt (by omega)]

/-- It is what `on_timeout` does. -/
theorem timedOut_onTimeout (h : c.NoTimeout) (resetEpoch : φ → φ) :
    TimedOut c (c.onTimeout resetEpoch) := by
  have hscale := UInt32.le_iff_toNat_le.mp (CubicFloat.scale_le (φ := φ) c.cwnd)
  have hmax : (c.onTimeout resetEpoch).ssthresh.toNat =
      max (CubicFloat.scale φ c.cwnd).toNat (2 * c.mss.toNat) := by
    show (max _ _ : UInt32).toNat = _
    rw [toNat_max, toNat_two_mul h.mss_le]
  refine ⟨rfl, ?_, ?_⟩ <;> rw [hmax] <;> show _ ≤ _
  · exact Nat.le_max_right ..
  · show _ ≤ max (2 * c.mss.toNat) _
    omega

omit [CubicFloat φ] in
/-- But a controller it has never run on does not look like it. -/
theorem NoTimeout.not_timedOut (h : c.NoTimeout) : ¬ TimedOut c c := by
  rintro ⟨hcwnd, hge, hle⟩
  have hmss := h.mss_ge
  cases hslow : c.inSlowStart with
  | true =>
    rw [(h.slow hslow).1, hcwnd, show (65535 : UInt32).toNat = 65535 from rfl] at *
    omega
  | false =>
    have hsteady := h.steady hslow
    rw [hcwnd] at hsteady
    omega

omit [CubicFloat φ] in
/-- The floating-point part does not matter. -/
theorem NoTimeout.congr {float : φ} (h : c.NoTimeout) : NoTimeout { c with float } := by
  obtain ⟨h1, h2, h3, h4, h5⟩ := h
  exact ⟨h1, h2, h3, h4, h5⟩

theorem noTimeout_create (mss : UInt16) : NoTimeout (create mss.toUInt32 : TCPCubic φ) := by
  have hlt := mss.toNat_lt
  have hcwnd : (create mss.toUInt32 : TCPCubic φ).cwnd.toNat = 10 * mss.toNat := by
    show ((10 : UInt32) * mss.toUInt32).toNat = _
    rw [UInt32.toNat_mul, UInt16.toNat_toUInt32, show (10 : UInt32).toNat = 10 from rfl,
      Nat.mod_eq_of_lt (by omega)]
  have hmss : ((create mss.toUInt32 : TCPCubic φ).mss.toNat = 536 ∧ mss.toNat < 536) ∨
      ((create mss.toUInt32 : TCPCubic φ).mss.toNat = mss.toNat ∧ 536 ≤ mss.toNat) := by
    show ((if mss.toUInt32 < 536 then (536 : UInt32) else mss.toUInt32).toNat = _ ∧ _) ∨
      ((if mss.toUInt32 < 536 then (536 : UInt32) else mss.toUInt32).toNat = _ ∧ _)
    have h536 : mss.toUInt32 < 536 ↔ mss.toNat < 536 := by
      rw [UInt32.lt_iff_toNat_lt, UInt16.toNat_toUInt32]
      rfl
    split
    · rename_i h
      exact Or.inl ⟨rfl, h536.mp h⟩
    · rename_i h
      exact Or.inr ⟨UInt16.toNat_toUInt32 _, Nat.not_lt.mp (h536.not.mp h)⟩
  refine ⟨?_, ?_, ?_, fun _ => ⟨rfl, ?_⟩, fun h => nomatch h⟩ <;> omega

theorem NoTimeout.onAck (h : c.NoTimeout) {bytesAcked rttUs : UInt32} {now : Nat}
    (hb : bytesAcked.toNat < 2 ^ 31) : (c.onAck bytesAcked rttUs now).NoTimeout := by
  have hle := h.cwnd_le
  have hmss := h.mss_ge
  have hmss' := h.mss_le
  rw [TCPCubic.onAck]
  dsimp only
  split
  · rename_i hslow
    rw [Bool.and_eq_true, decide_eq_true_eq] at hslow
    obtain ⟨hthresh, hwnd⟩ := h.slow hslow.1
    have hlt := UInt32.lt_iff_toNat_lt.mp hslow.2
    rw [hthresh, show (65535 : UInt32).toNat = 65535 from rfl] at hlt
    have hadd : (c.cwnd + bytesAcked).toNat = c.cwnd.toNat + bytesAcked.toNat := by
      rw [UInt32.toNat_add, Nat.mod_eq_of_lt (by omega)]
    refine ⟨hmss, hmss', ?_, fun _ => ⟨hthresh, ?_⟩, fun hf => absurd (hslow.1.symm.trans hf) nofun⟩
    · simp only [hadd]
      omega
    · simp only [hadd]
      omega
  · rename_i hslow
    -- behind slow start the window is two segments or more
    have hge : 2 * c.mss.toNat ≤ c.cwnd.toNat := by
      cases hs : c.inSlowStart with
      | false => exact h.steady hs
      | true =>
        obtain ⟨hthresh, hwnd⟩ := h.slow hs
        rw [hs, Bool.true_and, decide_eq_true_eq, UInt32.lt_iff_toNat_lt, hthresh,
          show (65535 : UInt32).toNat = 65535 from rfl] at hslow
        omega
    generalize hgrown : (if c.cwnd < _ then _ else c.cwnd : UInt32) = grown
    have hgrow : c.cwnd.toNat ≤ grown.toNat := by
      rw [← hgrown]
      split
      · generalize ((_ : UInt32) - c.cwnd) * c.mss = product
        have hdiv : (product / c.cwnd).toNat ≤ 429496729 := by
          rw [UInt32.toNat_div]
          have hp := product.toNat_lt
          calc product.toNat / c.cwnd.toNat ≤ product.toNat / 10 :=
                Nat.div_le_div_left (by omega) (by decide)
            _ ≤ 429496729 := by omega
        have hquot : (max (product / c.cwnd) 1).toNat ≤ 429496729 := by
          rw [toNat_max, show (1 : UInt32).toNat = 1 from rfl]
          omega
        rw [UInt32.toNat_add, Nat.mod_eq_of_lt (by omega)]
        exact Nat.le_add_right ..
      · exact Nat.le_refl _
    have hmin : (min grown (65535 * 16)).toNat = min grown.toNat 1048560 := by
      rw [toNat_min]
      rfl
    refine ⟨hmss, hmss', ?_, (fun hf => nomatch hf), fun _ => ?_⟩
    · simp only [hmin]
      omega
    · simp only [hmin]
      omega

theorem NoTimeout.onLoss (h : c.NoTimeout) (bytesLost : UInt32) :
    (c.onLoss bytesLost).NoTimeout := by
  have hle := h.cwnd_le
  have hmss := h.mss_ge
  have hmss' := h.mss_le
  have hscale := UInt32.le_iff_toNat_le.mp (CubicFloat.scale_le (φ := φ) c.cwnd)
  have hmax : (c.onLoss bytesLost).cwnd.toNat =
      max (CubicFloat.scale φ c.cwnd).toNat (2 * c.mss.toNat) := by
    show (max _ _ : UInt32).toNat = _
    rw [toNat_max, toNat_two_mul h.mss_le]
  refine ⟨hmss, hmss', ?_, (fun hf => nomatch hf), fun _ => ?_⟩ <;> rw [hmax]
  · omega
  · exact Nat.le_max_right ..

end TCPCubic

/-! ## The controllers that are installed -/

/-- A controller with a `TCPCubic` in it, which sees its acknowledgements and losses. -/
class CubicBased (σ : Type) (φ : outParam Type) [CubicFloat φ] [ICongestionControl σ] where
  base : σ → TCPCubic φ
  base_create : ∀ mss : UInt16, base (ICongestionControl.create mss) = .create mss.toUInt32
  base_onAck : ∀ c bytesAcked rttUs now, ∃ float,
    base (ICongestionControl.onAck c bytesAcked rttUs now) =
      { (base c).onAck bytesAcked rttUs now with float }
  base_onLoss : ∀ c bytesLost,
    base (ICongestionControl.onLoss c bytesLost) = (base c).onLoss bytesLost

instance {φ : Type} [CubicFloat φ] : CubicBased (TCPCubic φ) φ where
  base c := c
  base_create _ := rfl
  base_onAck _ _ _ _ := ⟨_, rfl⟩
  base_onLoss _ _ := rfl

instance {φ : Type} [OrcaFloat φ] : CubicBased (Controller φ) φ where
  base
    | .cubic c => c
    | .orca c => c.cubic
  base_create _ := rfl
  base_onAck c _ _ _ := by cases c <;> exact ⟨_, rfl⟩
  base_onLoss c _ := by cases c <;> rfl

section Base
variable {σ φ : Type} [CubicFloat φ] [ICongestionControl σ] [CubicBased σ φ]

namespace TCB

/-- The TCB has a controller, whose `on_timeout` has never run. -/
def Governed (t : TCB σ) : Prop :=
  ∃ c, t.congestionControl = some (.other c) ∧ (CubicBased.base c).NoTimeout

/-- The TCB has no controller and nothing to send: it listens, or did. -/
structure Ungoverned (t : TCB σ) : Prop where
  control : t.congestionControl = none
  state : t.state = .listen ∨ t.state = .closed
  queue : t.retransmitQueue = []
  buffer : t.sendBuffer.empty = true

variable {t t' : TCB σ}

theorem Governed.congr (h : t.Governed) (hcc : t'.congestionControl = t.congestionControl) :
    t'.Governed := by
  obtain ⟨c, hc, hno⟩ := h
  exact ⟨c, hcc.trans hc, hno⟩

theorem Governed.map (h : t.Governed) {f : CongestionControl σ → CongestionControl σ}
    (hcc : t'.congestionControl = t.congestionControl.map f)
    (hf : ∀ c, (CubicBased.base c).NoTimeout →
      ∃ c', f (.other c) = .other c' ∧ (CubicBased.base c').NoTimeout) : t'.Governed := by
  obtain ⟨c, hc, hno⟩ := h
  obtain ⟨c', hc', hno'⟩ := hf c hno
  exact ⟨c', by rw [hcc, hc, Option.map_some, hc'], hno'⟩

end TCB

namespace Conn
variable {x : Option TCPSegment} {c c' : Conn σ}

theorem Move.governed (h : Move x c c') (hc : c.tcb.Governed) : c'.tcb.Governed := by
  cases h with
  | loss c =>
    refine hc.map rfl fun d hd => ⟨_, rfl, ?_⟩
    rw [CubicBased.base_onLoss]
    exact hd.onLoss 0
  | reno c f hf =>
    refine hc.map rfl fun d hd => ⟨d, ?_, hd⟩
    rcases hf with rfl | rfl <;> rfl
  | advance env c seg hx hack hgt =>
    refine hc.map rfl fun d hd => ⟨_, rfl, ?_⟩
    obtain ⟨float, hbase⟩ := CubicBased.base_onAck d
      (UInt32.ofNat (seg.ackNum - c.tcb.sndUna).toNat) c.tcb.srttUs env.now
    rw [hbase]
    refine (hd.onAck ?_).congr
    rw [seqGt_iff] at hgt
    rw [UInt32.toNat_ofNat_of_lt' (Nat.lt_trans hgt.2 (by decide))]
    exact hgt.2
  | ack | delayedAck | drain | transmitData | deferredFin | finish =>
    refine hc.congr ?_
    simp only [drainStep, setState_tcb, buffer_tcb, sendSegment_congestionControl, log_tcb]
  | resend | resendBare | probe =>
    refine hc.congr ?_
    simp only [rawSend_tcb, sendZeroWindowProbe_tcb]
  | _ => exact hc.congr rfl

omit [CubicFloat φ] [CubicBased σ φ] in
/-- What has nothing to send goes on having nothing. -/
theorem Move.ungoverned (h : Move x c c') (hc : c.tcb.Ungoverned) : c'.tcb.Ungoverned := by
  obtain ⟨hcc, hs, hq, hbuf⟩ := hc
  have hcan : ∀ s : TCPState, s.canSend = true → c.tcb.state ≠ s ∧ c.tcb.state ≠ s.afterFin := by
    intro s hs'
    rcases hs with hs | hs <;> rw [hs] <;> cases s <;> first | decide | cases hs'
  cases h with
  | loss c => exact ⟨by rw [hcc]; rfl, hs, hq, hbuf⟩
  | reno c f => exact ⟨by rw [hcc]; rfl, hs, hq, hbuf⟩
  | advance env c seg =>
    refine ⟨by rw [Conn.advance, hcc]; rfl, hs, ?_, hbuf⟩
    rw [Conn.advance, hq]
    rfl
  | touchHead c e rest count timeout hq' => exact absurd (hq'.symm.trans hq) (List.cons_ne_nil _ _)
  | resend c e rest flags hq' => exact absurd (hq'.symm.trans hq) (List.cons_ne_nil _ _)
  | resendBare c e rest hq' => exact absurd (hq'.symm.trans hq) (List.cons_ne_nil _ _)
  | probe c hwnd hbuf' => exact absurd (hbuf'.symm.trans hbuf) Bool.false_ne_true
  | ack env c => exact ⟨by simpa using hcc, by simpa using hs, by simpa using hq, by simpa using hbuf⟩
  | delayedAck env c =>
    exact ⟨by simpa using hcc, by simpa using hs, by simpa using hq, by simpa using hbuf⟩
  | drain env c hbuf' => exact absurd (hbuf'.symm.trans hbuf) Bool.false_ne_true
  | bufferData c data hs' => exact absurd rfl (hcan _ hs').1
  | transmitData env c data n hs' => exact absurd rfl (hcan _ hs').1
  | setPending c hs' => exact absurd rfl (hcan _ hs').1
  | deferredFin env c hs' => exact absurd rfl (hcan _ hs').1
  | finish env c s hs' hactual =>
    rcases hactual with hactual | hactual
    · exact absurd hactual (hcan s hs').1
    · exact absurd hactual (hcan s hs').2
  | _ => exact ⟨hcc, hs, hq, hbuf⟩

end Conn

/-- **No timeout reaches a controller.** -/
theorem TCB.keeps_governed (x : Option TCPSegment) :
    TCB.Keeps (σ := σ) (fun t => t.Governed ∨ t.Ungoverned) x where
  new t ht := by
    have hcreate : ∀ mss : UInt16,
        (CubicBased.base (ICongestionControl.create mss : σ)).NoTimeout := by
      intro mss
      rw [CubicBased.base_create]
      exact TCPCubic.noTimeout_create mss
    cases ht with
    | listen => exact Or.inr ⟨rfl, Or.inl rfl, rfl, rfl⟩
    | connect => exact Or.inl ⟨_, rfl, hcreate _⟩
    | accept => exact Or.inl ⟨_, rfl, hcreate _⟩
  change t u hchange ht := by
    cases hchange with
    | conn _ hmove => exact ht.imp hmove.governed hmove.ungoverned
    | callbacks | receiveSyn | rcvNxt =>
      exact ht.imp (·.congr rfl) fun ⟨hcc, hs, hq, hbuf⟩ => ⟨hcc, hs, hq, hbuf⟩
    | popOoo =>
      rw [TCPConnectionManager.popOoo]
      split
      · exact ht
      · exact ht.imp (·.congr rfl) fun ⟨hcc, hs, hq, hbuf⟩ => ⟨hcc, hs, hq, hbuf⟩
    | stash =>
      rw [TCPConnectionManager.addToOooQueue]
      split
      · exact ht
      · exact ht.imp (·.congr rfl) fun ⟨hcc, hs, hq, hbuf⟩ => ⟨hcc, hs, hq, hbuf⟩
    | reopen t seg now hs =>
      refine Or.inl (TCB.Governed.congr (ht.resolve_right fun hno => ?_) rfl)
      have hs' := hno.state
      rw [hs] at hs'
      rcases hs' with hs' | hs' <;> cases hs'
    | state t s hs =>
      rcases ht with ht | ⟨hcc, hs', hq, hbuf⟩
      · exact Or.inl (ht.congr rfl)
      · rcases hs with rfl | ⟨hl, hc⟩
        · exact Or.inr ⟨hcc, Or.inr rfl, hq, hbuf⟩
        · exact absurd hs' (not_or_intro hl hc)
    | release => exact ht.imp (·.congr rfl) fun ⟨hcc, hs, _, _⟩ => ⟨hcc, hs, rfl, rfl⟩

/-! ## Timeouts -/

namespace TCPConnectionManager
variable {m : TCPConnectionManager σ} {p : Ptr} {t : TCB σ}

omit [CubicFloat φ] [CubicBased σ φ] in
/-- The only controller a retransmission tells is a `TCPReno`. -/
theorem checkRetransmit_control {ctx : Context σ} (hp : m.heap p = some t)
    (h : m.Retransmits ctx p) : ∃ u, (m.checkRetransmit ctx p).heap p = some u ∧
      u.congestionControl = t.congestionControl.map (·.renoTimeout) := by
  obtain ⟨e, rest, hq⟩ := h.queue hp
  have hptr : (((Conn.mk p t m.trace).countRetransmit).retransmit ctx.toEnv).ptr = p :=
    (Conn.path_retransmit (x := none) _ _).ptr.trans (Conn.path_countRetransmit (x := none) _).ptr
  refine ⟨(((Conn.mk p t m.trace).countRetransmit).retransmit ctx.toEnv).tcb, ?_, ?_⟩
  · rw [checkRetransmit_eq hp h]
    have hself := store_heap_self m (((Conn.mk p t m.trace).countRetransmit).retransmit ctx.toEnv)
    rwa [hptr] at hself
  · rw [Conn.countRetransmit_eq hq, Conn.retransmit_tcb _ rfl]
    rfl

/-- No timeout that is handled leaves the window that `on_timeout` leaves. -/
def IgnoresTimeouts (m : TCPConnectionManager σ) : Prop :=
  ∀ ctx m' p t, m.Sweeping ctx m' → m'.heap p = some t → m'.Retransmits ctx p →
    ∃ u c c', (m'.checkRetransmit ctx p).heap p = some u ∧
      t.congestionControl = some (.other c) ∧ u.congestionControl = some (.other c') ∧
      ¬ TCPCubic.TimedOut (CubicBased.base c) (CubicBased.base c')

theorem ignoresTimeouts (hwf : m.WellFormed)
    (h : m.AllTCBs fun t => t.Governed ∨ t.Ungoverned) : m.IgnoresTimeouts := by
  intro ctx m' p t hsweep hp hdue
  obtain ⟨u, hu, hcc⟩ := checkRetransmit_control hp hdue
  rcases hsweep.tcbs hwf (TCB.keeps_governed none) h p t hp with ⟨c, hc, hno⟩ | hidle
  · refine ⟨u, c, c, hu, hc, ?_, hno.not_timedOut⟩
    rw [hcc, hc]
    rfl
  · obtain ⟨e, rest, hq⟩ := hdue.queue hp
    exact absurd (hq.symm.trans hidle.queue) (List.cons_ne_nil _ _)

end TCPConnectionManager

end Base

/-! ### The AI part -/

section Layer
variable {φ ι : Type} [OrcaAlpha φ ι] [AgentFloat ι]

theorem TCB.Governed.adjustCwnd {t : TCB (Controller φ)} (h : t.Governed) (alpha : ι) :
    (t.adjustCwnd alpha).Governed := by
  obtain ⟨c, hc, hno⟩ := h
  rw [TCB.adjustCwnd, hc]
  cases c with
  | cubic c => exact ⟨_, hc, hno⟩
  | orca c => exact ⟨_, rfl, hno.congr⟩

omit [AgentFloat ι] in
theorem TCB.Governed.switchToCubic {t : TCB (Controller φ)} (h : t.Governed) :
    t.switchToCubic.Governed := by
  obtain ⟨c, hc, hno⟩ := h
  rw [TCB.switchToCubic, hc]
  cases c with
  | cubic c => exact ⟨_, hc, hno⟩
  | orca c => exact ⟨_, rfl, TCPCubic.noTimeout_create _⟩

omit [AgentFloat ι] in
theorem TCB.Governed.switchToOrca {t : TCB (Controller φ)} (h : t.Governed) :
    t.switchToOrca.Governed := by
  obtain ⟨c, hc, hno⟩ := h
  rw [TCB.switchToOrca, hc]
  cases c with
  | cubic c => exact ⟨_, rfl, TCPCubic.noTimeout_create _⟩
  | orca c => exact ⟨_, hc, hno⟩

namespace AILayer
variable {l : AILayer φ ι}

/-- The states of the layer over all of its runs. -/
def Reachable (l : AILayer φ ι) : Prop :=
  ∃ localIp xs, l = GuardedRun.run AILayer.step (init localIp) xs

omit [AgentFloat ι] in
/-- The sweeps over the connections reset a window at most to what a new controller has. -/
theorem governed_forConnections {m : TCPConnectionManager (Controller φ)} (hwf : m.WellFormed)
    {f : TCB (Controller φ) → TCB (Controller φ)} (hgov : ∀ t, t.Governed → (f t).Governed)
    (hnone : ∀ t, t.congestionControl = none → f t = t)
    (h : m.AllTCBs fun t => t.Governed ∨ t.Ungoverned) :
    (m.forConnections f).AllTCBs fun t => t.Governed ∨ t.Ungoverned := by
  obtain ⟨heap, heq, hheap⟩ := TCPConnectionManager.forConnections_heap hwf f
  rw [heq]
  intro p u hu
  replace hu : heap p = some u := hu
  rw [hheap] at hu
  split at hu
  · obtain ⟨t, ht, rfl⟩ := Option.map_eq_some_iff.mp hu
    rcases h p t ht with hg | hidle
    · exact Or.inl (hgov t hg)
    · rw [hnone t hidle.control]
      exact Or.inr hidle
  · exact h p u hu

/-- No controller of the layer has been told of a timeout. -/
structure Untold (l : AILayer φ ι) : Prop where
  sound : l.Sound
  tcbs : l.tcpMgr.AllTCBs fun t => t.Governed ∨ t.Ungoverned

theorem Untold.processAiAction (h : l.Untold) (a : AIAction ι) : (l.processAiAction a).Untold := by
  refine ⟨(h.sound.processAiAction a).1, ?_⟩
  have hchange : ∀ agent, ({ l with agent } : AILayer φ ι).applyStateChange.tcpMgr.AllTCBs
      fun t => t.Governed ∨ t.Ungoverned := by
    intro agent
    rw [applyStateChange]
    dsimp only
    split
    · exact h.tcbs
    split
    · exact governed_forConnections h.sound.wellFormed (fun _ => TCB.Governed.switchToCubic)
        (fun t ht => by rw [TCB.switchToCubic, ht]) h.tcbs
    split
    · exact governed_forConnections h.sound.wellFormed (fun _ => TCB.Governed.switchToOrca)
        (fun t ht => by rw [TCB.switchToOrca, ht]) h.tcbs
    · exact h.tcbs
  cases a with
  | none => exact h.tcbs
  | cwndAdjust alpha =>
    exact governed_forConnections h.sound.wellFormed (fun _ ht => ht.adjustCwnd _)
      (fun t ht => by rw [TCB.adjustCwnd, ht]) h.tcbs
  | anomalyAlert score => exact hchange _
  | bwPrediction bw => exact hchange _

theorem Untold.step (h : l.Untold) (x : LayerInput φ ι) : (l.step x).Untold := by
  cases x with
  | entry x =>
    exact ⟨h.sound.step (.entry x), h.tcbs.step h.sound.wellFormed (TCB.keeps_governed _)⟩
  | actions as =>
    show (as.foldl AILayer.processAiAction l).Untold
    induction as generalizing l with
    | nil => exact h
    | cons a as ih => exact ih (h.processAiAction a)

theorem Reachable.untold (h : l.Reachable) : l.Untold := by
  obtain ⟨localIp, xs, rfl⟩ := h
  exact GuardedRun.run_invariant (fun _ x h => h.step x)
    ⟨sound_init localIp, .init _ localIp⟩ xs

end AILayer

/-- **No timeout ever collapses a window**, with the AI part or without it. -/
theorem timeouts_ignored {ψ : Type} [CubicFloat ψ] :
    (∀ m : TCPConnectionManager (TCPCubic ψ), m.Reachable → m.IgnoresTimeouts) ∧
      ∀ l : AILayer φ ι, l.Reachable → l.tcpMgr.IgnoresTimeouts :=
  ⟨fun _ h => TCPConnectionManager.ignoresTimeouts h.wellFormed (h.tcbs TCB.keeps_governed),
    fun _ h => TCPConnectionManager.ignoresTimeouts h.untold.sound.wellFormed h.untold.tcbs⟩

end Layer

/-! ### A SYN that is not answered -/

namespace TCPConnectionManager

theorem callingHost_ignores : (∃ t, callingHost.heap 0 = some t ∧
    callingHost.Retransmits (.silent 2000000 0) 0) ∧ callingHost.IgnoresTimeouts :=
  ⟨callingHost_due, (timeouts_ignored (φ := Unit)).1 callingHost callingHost_reachable⟩

/-- That leaves its window at ten segments. -/
theorem callingHost_keeps_window : ¬ ∀ (m : TCPConnectionManager (TCPCubic Unit)) ctx m' p t,
    m.Reachable → m.Sweeping ctx m' → m'.heap p = some t → m'.Retransmits ctx p →
      ∃ u c c', (m'.checkRetransmit ctx p).heap p = some u ∧
        t.congestionControl = some (.other c) ∧ u.congestionControl = some (.other c') ∧
        TCPCubic.TimedOut (CubicBased.base c) (CubicBased.base c') := by
  intro hclaim
  obtain ⟨t, hp, hdue⟩ := callingHost_due
  obtain ⟨u, c, c', hu, hc, hc', htimedOut⟩ :=
    hclaim callingHost (.silent 2000000 0) callingHost 0 t callingHost_reachable ⟨[], rfl⟩ hp hdue
  obtain ⟨u', d, d', hu', hd, hd', hno⟩ := ignoresTimeouts callingHost_reachable.wellFormed
    (callingHost_reachable.tcbs TCB.keeps_governed) (.silent 2000000 0) callingHost 0 t
    ⟨[], rfl⟩ hp hdue
  rw [hu] at hu'
  cases hu'
  rw [hc] at hd
  rw [hc'] at hd'
  cases hd
  cases hd'
  exact hno htimedOut

end TCPConnectionManager
end NeuStack
