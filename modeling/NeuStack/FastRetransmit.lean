import NeuStack.AckHistory
import NeuStack.EveryNth
import NeuStack.SendSteps

/-! # Fast retransmit

`check_dup_ack` counts the acknowledgements that repeat `snd_una` while the retransmission
queue holds something, and reports a loss at every third since `snd_una` last moved: the
guard against a second report is for a `TCPReno`, which `create_tcb` does not install.  It
looks neither at the data of the segment nor at its window.
-/
namespace NeuStack
variable {σ : Type}

/-! ## The acknowledgements -/

namespace Acknowledgement
variable (a : Acknowledgement σ)

/-- It moves `snd_una`. -/
def advances : Bool := seqGt a.seg.ackNum a.tcb.sndUna

/-- It repeats `snd_una` while something is outstanding: what `check_dup_ack` counts. -/
def isDuplicate : Bool := a.seg.ackNum == a.tcb.sndUna && !a.tcb.retransmitQueue.isEmpty

/-- A duplicate without data, SYN, FIN or a new window. -/
def isPureDuplicate : Bool :=
  a.isDuplicate && a.seg.data.isEmpty && !a.seg.isSyn && !a.seg.isFin &&
    a.seg.window.toNat == a.tcb.sndWnd

/-- `check_dup_ack` calls `on_loss`. -/
def reportsLoss : Bool :=
  a.isDuplicate && a.tcb.congestionControl.any (!·.inFastRecovery) && a.tcb.dupAckCount + 1 == 3

variable {a}

theorem not_advances_of_isDuplicate (h : a.isDuplicate = true) : a.advances = false := by
  rw [isDuplicate, Bool.and_eq_true, beq_iff_eq] at h
  rw [advances, h.1, ← Bool.not_eq_true, seqGt_iff]
  simp

/-- A controller that is not a `TCPReno` never suppresses the report. -/
theorem reportsLoss_of_other {s : σ} (hcc : a.tcb.congestionControl = some (.other s)) :
    a.reportsLoss = (a.isDuplicate && a.tcb.dupAckCount + 1 == 3) := by
  have hany : a.tcb.congestionControl.any (!·.inFastRecovery) = true := by rw [hcc]; rfl
  rw [reportsLoss, hany, Bool.and_true]

theorem isDuplicate_of_isPureDuplicate (h : a.isPureDuplicate = true) : a.isDuplicate = true := by
  simp only [isPureDuplicate, Bool.and_eq_true] at h
  exact h.1.1.1.1

end Acknowledgement

/-- Loss reports as an alarm at the third duplicate, which should be a pure one. -/
def lossAlarm (σ : Type) : EveryNth.Alarm (Acknowledgement σ) where
  reset := Acknowledgement.advances
  tick := Acknowledgement.isDuplicate
  good := Acknowledgement.isPureDuplicate
  fire := Acknowledgement.reportsLoss
  tick_reset _ := Acknowledgement.not_advances_of_isDuplicate
  good_tick _ := Acknowledgement.isDuplicate_of_isPureDuplicate

variable [ICongestionControl σ]

/-! ## What counts the duplicates -/

/-- What `check_dup_ack` decides by, besides the queue. -/
def TCB.lossState (t : TCB σ) : Nat × Option (CongestionControl σ) :=
  (t.dupAckCount, t.congestionControl)

namespace Conn
variable {env : Env} {c c' : Conn σ}

omit [ICongestionControl σ] in
theorem sendSegment_lossState (env : Env) (c : Conn σ) (flags : UInt8) (data : List UInt8) :
    (c.sendSegment env flags data).tcb.lossState = c.tcb.lossState := by
  unfold sendSegment
  split
  · rfl
  · dsimp only
    split <;> rfl

omit [ICongestionControl σ] in
theorem Out.lossState (h : Out env c c') : c'.tcb.lossState = c.tcb.lossState := by
  cases h with
  | still hrtt hq hdup hcc => exact Prod.ext hdup hcc
  | log => rfl
  | segment => exact sendSegment_lossState ..

omit [ICongestionControl σ] in
/-- The functions that send leave it alone. -/
theorem Outs.lossState (h : Outs env c c') : c'.tcb.lossState = c.tcb.lossState := by
  induction h with
  | refl => rfl
  | tail _ hout ih => exact hout.lossState.trans ih

end Conn

/-! ## The count and the controller -/

/-- The controller is not a `TCPReno`; only a TCB that processes no acknowledgement has none. -/
def TCB.Installed (t : TCB σ) : Prop :=
  (∃ s, t.congestionControl = some (.other s)) ∨
    t.congestionControl = none ∧ (t.state = .listen ∨ t.state = .closed)

/-- The third duplicate calls `on_loss`; any other acknowledgement leaves the controller
to `on_ack`. -/
theorem Conn.checkDupAck_lossState (a : Acknowledgement σ) {c : Conn σ} {s : σ}
    (htcb : c.tcb.lossState = a.tcb.lossState) (huna : c.tcb.sndUna = a.tcb.sndUna)
    (hq : c.tcb.retransmitQueue = a.tcb.retransmitQueue)
    (hcc : a.tcb.congestionControl = some (.other s)) :
    (c.checkDupAck a.seg.ackNum).tcb.lossState =
      if a.reportsLoss then (0, some ((CongestionControl.other s).onLoss 0))
      else (if a.isDuplicate then a.tcb.dupAckCount + 1 else a.tcb.dupAckCount,
        some (.other s)) := by
  obtain ⟨hdup, hcc'⟩ := Prod.mk.inj htcb
  have hother : c.tcb.congestionControl = some (.other s) := hcc'.trans hcc
  have hreno : c.tcb.congestionControl.any (·.inFastRecovery) = false := by rw [hother]; rfl
  have hsame : c.tcb.lossState = (a.tcb.dupAckCount, some (.other s)) := Prod.ext hdup hother
  rw [checkDupAck, hq, huna, hreno, hdup, Acknowledgement.reportsLoss_of_other hcc]
  cases hqa : a.tcb.retransmitQueue with
  | nil =>
    have hd : a.isDuplicate = false := by
      rw [Acknowledgement.isDuplicate, hqa, List.isEmpty_nil, Bool.not_true, Bool.and_false]
    rw [hd]
    exact hsame
  | cons entry rest =>
    have hd : a.isDuplicate = (a.seg.ackNum == a.tcb.sndUna) := by
      rw [Acknowledgement.isDuplicate, hqa, List.isEmpty_cons, Bool.not_false, Bool.and_true]
    rw [hd]
    dsimp only
    by_cases hnum : a.seg.ackNum = a.tcb.sndUna
    · rw [if_neg (not_not.mpr hnum), if_neg Bool.false_ne_true, beq_iff_eq.mpr hnum, Bool.true_and]
      by_cases hthird : a.tcb.dupAckCount + 1 = 3
      · rw [if_pos hthird, if_pos (beq_iff_eq.mpr hthird), hother]
        split <;> simp only [rawSend_tcb] <;> rfl
      · rw [if_neg hthird, if_neg (by rwa [beq_iff_eq])]
        exact Prod.ext rfl hother
    · rw [if_pos hnum, beq_false_of_ne hnum]
      exact hsame

/-- **What an acknowledgement does to the count.** -/
theorem Conn.processAck_lossState (env : Env) (p : Ptr) (tr : List Event) (a : Acknowledgement σ)
    {s : σ} (hcc : a.tcb.congestionControl = some (.other s)) : ∃ s',
    ((Conn.mk p a.tcb tr).processAck env a.seg.ackNum a.seg.window).tcb.lossState =
      (if a.advances || a.reportsLoss then 0
        else if a.isDuplicate then a.tcb.dupAckCount + 1 else a.tcb.dupAckCount,
      some (.other s')) := by
  rw [processAck]
  dsimp only
  generalize hc₁ : ({ ptr := p, tcb := { a.tcb with sndWnd := a.seg.window.toNat }, trace := tr } :
    Conn σ) = c₁
  have hloss := checkDupAck_lossState a (c := c₁) (by rw [← hc₁]; rfl) (by rw [← hc₁])
    (by rw [← hc₁]) hcc
  obtain ⟨cc, sampling, dup, htcb⟩ := checkDupAck_tcb c₁ a.seg.ackNum
  have huna : (c₁.checkDupAck a.seg.ackNum).tcb.sndUna = a.tcb.sndUna := by rw [htcb, ← hc₁]
  generalize c₁.checkDupAck a.seg.ackNum = c₂ at hloss huna ⊢
  rw [huna]
  have hinstalled : ∃ s', c₂.tcb.congestionControl = some (.other s') := by
    split at hloss
    · exact ⟨_, (Prod.mk.inj hloss).2⟩
    · exact ⟨_, (Prod.mk.inj hloss).2⟩
  cases hadv : a.advances with
  | true =>
    obtain ⟨s', hs'⟩ := hinstalled
    rw [Acknowledgement.advances] at hadv
    rw [hadv, Bool.not_true, if_neg Bool.false_ne_true, Bool.true_or, if_pos rfl,
      (outs_sample _).lossState, (outs_sendBufferedData _).lossState]
    exact ⟨_, Prod.ext rfl (by rw [TCB.lossState, advance, hs']; rfl)⟩
  | false =>
    have hdone (c₃ : Conn σ) (hc₃ : c₃.tcb.lossState = c₂.tcb.lossState) : ∃ s',
        c₃.tcb.lossState = (if a.reportsLoss then 0
          else if a.isDuplicate then a.tcb.dupAckCount + 1 else a.tcb.dupAckCount,
          some (.other s')) := by
      rw [hc₃, hloss]
      split <;> exact ⟨_, rfl⟩
    rw [Acknowledgement.advances] at hadv
    rw [hadv, Bool.not_false, if_pos rfl, Bool.false_or]
    split
    · exact hdone _ (outs_sendBufferedData c₂).lossState
    · exact hdone _ rfl

/-! ## The history of a connection -/

theorem TCB.New.installed {t : TCB σ} (h : t.New) : t.Installed ∧ t.dupAckCount = 0 := by
  cases h with
  | listen => exact ⟨Or.inr ⟨rfl, Or.inl rfl⟩, rfl⟩
  | connect => exact ⟨Or.inl ⟨_, rfl⟩, rfl⟩
  | accept => exact ⟨Or.inl ⟨_, rfl⟩, rfl⟩

/-- A call that is not given a segment changes the controller of a `TCPReno` only. -/
theorem Conn.ConnStep.lossState {c c' : Conn σ} (h : Conn.ConnStep none c c') :
    c'.tcb.lossState = c.tcb.lossState ∨
      c'.tcb.lossState = (c.tcb.dupAckCount, c.tcb.congestionControl.map (·.renoTimeout)) := by
  cases h with
  | send env c data => exact Or.inl (outs_send c data).lossState
  | finish env c => exact Or.inl (outs_finish c).lossState
  | processAck env c seg hx => cases hx
  | ack env c => exact Or.inl (sendSegment_lossState env c _ _)
  | acknowledgeData env c => exact Or.inl (outs_acknowledgeData c).lossState
  | updateRcvWnd c => exact Or.inl rfl
  | checkDelayedAck env c => exact Or.inl (outs_checkDelayedAck c).lossState
  | checkZeroWindowProbe env c => exact Or.inl (outs_checkZeroWindowProbe c).lossState
  | countRetransmit c =>
    rw [Conn.countRetransmit]
    split
    · exact Or.inl rfl
    · exact Or.inr rfl
  | retransmit env c =>
    rw [Conn.retransmit]
    split
    · exact Or.inl rfl
    · dsimp only
      split
      · rw [rawSend_tcb]
        exact Or.inl rfl
      · split
        · rw [rawSend_tcb]
          exact Or.inl rfl
        · exact Or.inl rfl

/-- A TCB that is not given an acknowledgement keeps its count, and its kind of controller. -/
theorem TCB.Quiet.lossState {t u : TCB σ} (h : TCB.Quiet t u) (ht : t.Installed) :
    u.Installed ∧ u.dupAckCount = t.dupAckCount := by
  have hsame (hl : u.lossState = t.lossState) (hs : u.state = t.state) :
      u.Installed ∧ u.dupAckCount = t.dupAckCount := by
    obtain ⟨hdup, hcc⟩ := Prod.mk.inj hl
    rw [Installed, hcc, hs]
    exact ⟨ht, hdup⟩
  cases h with
  | @conn c c' h =>
    have hl := h.lossState
    have hdup : c'.tcb.dupAckCount = c.tcb.dupAckCount := by
      rcases hl with hl | hl <;> exact (Prod.mk.inj hl).1
    refine ⟨?_, hdup⟩
    rcases ht with ⟨s, hs⟩ | ⟨hnone, hstate⟩
    · refine Or.inl ⟨s, ?_⟩
      rcases hl with hl | hl
      · exact (Prod.mk.inj hl).2.trans hs
      · rw [(Prod.mk.inj hl).2, hs]
        rfl
    · refine Or.inr ⟨?_, ?_⟩
      · rcases hl with hl | hl
        · exact (Prod.mk.inj hl).2.trans hnone
        · rw [(Prod.mk.inj hl).2, hnone]
          rfl
      · rcases h.path.state with hs | ⟨hcan, -⟩
        · rwa [hs]
        · rcases hstate with hs | hs <;> rw [hs] at hcan <;> cases hcan
  | popOoo t =>
    refine hsame ?_ ?_ <;>
    · rw [TCPConnectionManager.popOoo]
      split <;> rfl
  | stash t seq data =>
    refine hsame ?_ ?_ <;>
    · rw [TCPConnectionManager.addToOooQueue]
      split <;> rfl
  | state t s hs =>
    refine ⟨?_, rfl⟩
    rcases ht with hcc | ⟨hnone, hstate⟩
    · exact Or.inl hcc
    · rcases hs.alive with hs | ⟨hl, hc⟩
      · exact Or.inr ⟨hnone, Or.inr hs⟩
      · rcases hstate with hstate | hstate
        · exact absurd hstate hl
        · exact absurd hstate hc
  | _ => exact hsame rfl rfl

omit [ICongestionControl σ] in
/-- The count is that of the duplicates since `snd_una` moved, short of the reported ones. -/
theorem Acknowledgement.counted (a : Acknowledgement σ) {h : List (Acknowledgement σ)}
    (hloss : a.reportsLoss = (a.isDuplicate && a.tcb.dupAckCount + 1 == 3))
    (hcount : a.tcb.dupAckCount = ((lossAlarm σ).ticks h).length % 3) :
    (if a.advances || a.reportsLoss then 0
      else if a.isDuplicate then a.tcb.dupAckCount + 1 else a.tcb.dupAckCount) =
      ((lossAlarm σ).ticks (h ++ [a])).length % 3 := by
  cases hadv : a.advances with
  | true =>
    rw [EveryNth.Alarm.ticks_of_reset (A := lossAlarm σ) hadv]
    rfl
  | false =>
    cases hdup : a.isDuplicate with
    | false =>
      rw [hdup, Bool.false_and] at hloss
      rw [EveryNth.Alarm.ticks_of_not_tick (A := lossAlarm σ) hadv hdup, hloss, hcount]
      rfl
    | true =>
      rw [hdup, Bool.true_and] at hloss
      rw [EveryNth.Alarm.ticks_of_tick (A := lossAlarm σ) hdup, hloss, Bool.false_or,
        List.length_append, List.length_singleton, if_pos rfl]
      split
      · rename_i hthird
        rw [beq_iff_eq] at hthird
        omega
      · rename_i hthird
        rw [beq_iff_eq] at hthird
        omega

open TCPConnectionManager in
/-- **The count over a history.** -/
theorem counted : Recorded
    (fun h (t : TCB σ) => t.Installed ∧ (lossAlarm σ).Regular 3 h ∧
      t.dupAckCount = ((lossAlarm σ).ticks h).length % 3)
    ((lossAlarm σ).Regular 3) where
  nil := EveryNth.Alarm.regular_nil
  new t ht := ⟨ht.installed.1, EveryNth.Alarm.regular_nil, ht.installed.2⟩
  quiet h t u hquiet ht := by
    obtain ⟨hinstalled, hdup⟩ := hquiet.lossState ht.1
    exact ⟨hinstalled, ht.2.1, hdup.trans ht.2.2⟩
  history h t ht := ht.2.1
  ack h t seg env p tr ht htaken := by
    obtain ⟨hinstalled, hreg, hcount⟩ := ht
    have hcc : ∃ s, t.congestionControl = some (.other s) := by
      rcases hinstalled with hcc | ⟨-, hs⟩
      · exact hcc
      · rcases htaken with hact | ⟨hstate, -⟩ | ⟨hstate, -⟩
        · rcases hs with hs | hs <;> rw [hs] at hact <;> cases hact
        · rcases hs with hs | hs <;> rw [hs] at hstate <;> cases hstate
        · rcases hs with hs | hs <;> rw [hs] at hstate <;> cases hstate
    obtain ⟨s, hcc⟩ := hcc
    let a : Acknowledgement σ := ⟨t, seg⟩
    have hloss := Acknowledgement.reportsLoss_of_other (a := a) hcc
    obtain ⟨s', hstate⟩ := Conn.processAck_lossState env p tr a hcc
    obtain ⟨hnext, hcc'⟩ := Prod.mk.inj hstate
    refine ⟨Or.inl ⟨s', hcc'⟩, hreg.concat ?_, hnext.trans (a.counted hloss hcount)⟩
    show a.reportsLoss = true ↔ a.isDuplicate = true ∧ _
    rw [hloss, Bool.and_eq_true, beq_iff_eq, ← hcount]

namespace TCPConnectionManager

/-- **Fast retransmit, exactly.** -/
theorem fastRetransmit_iff (localIp : UInt32) (p : Ptr) (xs : List (Input σ)) :
    (lossAlarm σ).Deserved 3 ((init localIp).history p xs) ∧
      (lossAlarm σ).Once ((init localIp).history p xs) ↔
    (lossAlarm σ).Tame 3 ((init localIp).history p xs) := by
  exact EveryNth.Alarm.served_iff (by decide) (counted.run localIp p xs).1

/-! ### A peer that sends data -/

/-- While a byte of this side is under way, the peer sends three bytes of its own, one
segment after another, and then acknowledges what it has three times. -/
def echoes : List (Input (TCPCubic Unit)) :=
  [⟨.silent 0 0, .call (.connect 0x0a000002 80 5000 none)⟩,
    ⟨.silent 1 0, .segment ⟨0x0a000002, 0x0a000001, 80, 5000, 0, 1,
      TCPFlags.syn ||| TCPFlags.ack, 65535, []⟩⟩,
    ⟨.silent 2 0, .call (.send 0 [1])⟩] ++
  [(1, [7]), (2, [8]), (3, [9]), (4, []), (4, []), (4, [])].map fun part =>
    ⟨.silent 3 0, .segment ⟨0x0a000002, 0x0a000001, 80, 5000, part.1, 1, TCPFlags.ack, 65535,
      part.2⟩⟩

/-- The first loss is reported at the third byte, the second at the third acknowledgement. -/
theorem echoes_lose : ¬ (lossAlarm _).Deserved 3 ((init 0x0a000001).history 0 echoes) ∧
    ¬ (lossAlarm _).Once ((init 0x0a000001).history 0 echoes) := by
  generalize hh : (init 0x0a000001).history 0 echoes = h
  have hruns : (h[3]?.any fun a => a.reportsLoss &&
        decide (((lossAlarm _).since (h.take 3 ++ [a])).countP Acknowledgement.isPureDuplicate
          = 0)) = true ∧
      ((lossAlarm _).since h).countP Acknowledgement.reportsLoss = 2 := by
    rw [← hh]
    decide +kernel
  obtain ⟨hthird, htwice⟩ := hruns
  constructor
  · intro hdeserved
    obtain ⟨a, ha, hfire⟩ := (Option.any_eq_true ..).mp hthird
    rw [Bool.and_eq_true, decide_eq_true_eq] at hfire
    have hprefix : h.take 3 ++ [a] <+: h := by
      have htake := List.take_prefix 4 h
      rwa [List.take_add_one, ha] at htake
    have hpure := hdeserved _ a hprefix hfire.1
    rw [show (lossAlarm (TCPCubic Unit)).good = Acknowledgement.isPureDuplicate from rfl,
      hfire.2] at hpure
    exact absurd hpure (by decide)
  · intro honce
    have hle := honce h (List.prefix_refl h)
    rw [show (lossAlarm (TCPCubic Unit)).fire = Acknowledgement.reportsLoss from rfl,
      htwice] at hle
    exact absurd hle (by decide)

end TCPConnectionManager
end NeuStack
