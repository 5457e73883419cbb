import NeuStack.PacketInspection

/-! # The hysteresis of the escalation

The detector leaves its shadow mode after a number of anomalies in a row and enters it again
after a number of normal answers in a row, and after either it waits.  What matters of it is
its `Mode`; `Consulted` lists what a call of `run_inference` can do to that.

An `Escalation` keeps the history of these calls, the newest first.  The two counters of
the code have 32 bits and may wrap, so they bound the runs of like answers in the history
from below (`Hysteresis.anomalies`, `Hysteresis.normals`).
-/
namespace NeuStack

/-! ## The mode -/

namespace FirewallAI
variable {φ : Type}

/-- What an inference looks at and changes when it may switch the mode. -/
structure Mode where
  shadow : Bool
  anomalies : UInt32
  normals : UInt32
  lastMs : UInt64
  escalations : UInt64
  deescalations : UInt64
  deriving DecidableEq, Repr

def mode (ai : FirewallAI φ) : Mode where
  shadow := ai.config.shadowMode
  anomalies := ai.consecutiveAnomaly
  normals := ai.consecutiveNormal
  lastMs := ai.lastEscalationTimeMs
  escalations := ai.stats.escalations
  deescalations := ai.stats.deescalations

/-- The last switch was less than the cooldown ago. -/
def Mode.InCooldown (m : Mode) (c : FirewallAIConfig φ) (ms : UInt64) : Prop :=
  0 < m.lastMs ∧ ms - m.lastMs < c.escalateCooldownMs

/-- What `run_inference` gets to hear: whether the model found an anomaly, unless it is not
asked, or fails. -/
def answer (ai : FirewallAI φ) (inf : Inference φ) : Option Bool :=
  if ai.loaded && !ai.metrics.idle then inf.result.map (·.2) else none

/-- **All that an inference can do to the mode**, by the answer. -/
inductive Consulted (c : FirewallAIConfig φ) (ms : UInt64) (m : Mode) : Option Bool → Mode → Prop
  | skipped : Consulted c ms m none m
  | anomaly : Consulted c ms m (some true) { m with anomalies := m.anomalies + 1, normals := 0 }
  | escalated (hshadow : m.shadow = true) (hcool : ¬ m.InCooldown c ms)
      (hcount : c.escalateConsecutive ≤ m.anomalies + 1) :
      Consulted c ms m (some true) { m with
        shadow := false, anomalies := 0, normals := 0, lastMs := ms
        escalations := m.escalations + 1 }
  | normal : Consulted c ms m (some false) { m with anomalies := 0, normals := m.normals + 1 }
  | deescalated (hshadow : m.shadow = false) (hcool : ¬ m.InCooldown c ms)
      (hcount : c.deescalateNormalCount ≤ m.normals + 1) :
      Consulted c ms m (some false) { m with
        shadow := true, anomalies := 0, normals := 0, lastMs := ms
        deescalations := m.deescalations + 1 }

theorem inCooldown_iff (ai : FirewallAI φ) (ms : UInt64) :
    ai.inCooldown ms = true ↔ ai.mode.InCooldown ai.config ms :=
  decide_eq_true_iff

theorem escalate_consulted (ai : FirewallAI φ) (isAnomaly : Bool) (ms : UInt64) :
    Consulted ai.config ms ai.mode (some isAnomaly) (ai.escalate isAnomaly ms).mode := by
  rw [escalate]
  cases isAnomaly with
  | true =>
    rw [if_pos rfl]
    dsimp only
    split
    · rename_i h
      exact .escalated h.1 (mt (inCooldown_iff ai ms).mpr h.2.1) h.2.2
    · exact .anomaly
  | false =>
    rw [if_neg Bool.false_ne_true]
    dsimp only
    split
    · rename_i h
      exact .deescalated (Bool.not_eq_true _ ▸ h.1) (mt (inCooldown_iff ai ms).mpr h.2.1) h.2.2
    · exact .normal

variable [FirewallFloat φ]

/-- The statistics of an answer do not touch the mode. -/
theorem recordResult_mode (ai : FirewallAI φ) (score : φ) (isAnomaly : Bool)
    (anomalyMs : UInt64) : (ai.recordResult score isAnomaly anomalyMs).mode = ai.mode ∧
      (ai.recordResult score isAnomaly anomalyMs).config = ai.config := by
  cases isAnomaly with
  | false => exact ⟨rfl, rfl⟩
  | true =>
    rw [recordResult, if_pos rfl, countAnomaly]
    dsimp only
    split <;> exact ⟨rfl, rfl⟩

theorem runInference_consulted (ai : FirewallAI φ) (hauto : ai.config.autoEscalate = true)
    (inf : Inference φ) :
    Consulted ai.config inf.currentMs ai.mode (ai.answer inf) (ai.runInference inf).mode := by
  rw [runInference, answer]
  cases ai.loaded with
  | false => exact .skipped
  | true =>
    cases ai.metrics.idle with
    | true => exact .skipped
    | false =>
      cases inf.result with
      | none => exact .skipped
      | some result =>
        obtain ⟨score, isAnomaly⟩ := result
        obtain ⟨hmode, hconfig⟩ := ai.recordResult_mode score isAnomaly inf.anomalyMs
        have hescalate := escalate_consulted (ai.recordResult score isAnomaly inf.anomalyMs)
          isAnomaly inf.currentMs
        rw [hmode, hconfig] at hescalate
        show Consulted ai.config inf.currentMs ai.mode (some isAnomaly)
          (mode (if (ai.recordResult score isAnomaly inf.anomalyMs).config.autoEscalate then _
            else _))
        rw [if_pos (by rw [hconfig]; exact hauto)]
        exact hescalate

end FirewallAI

/-- The settings of the escalation are the same. -/
structure FirewallAIConfig.SameSettings {φ : Type} (c c' : FirewallAIConfig φ) : Prop where
  auto : c'.autoEscalate = c.autoEscalate
  escalate : c'.escalateConsecutive = c.escalateConsecutive
  deescalate : c'.deescalateNormalCount = c.deescalateNormalCount
  cooldown : c'.escalateCooldownMs = c.escalateCooldownMs

namespace FirewallAI
variable {φ : Type}

theorem escalate_settings (ai : FirewallAI φ) (isAnomaly : Bool) (ms : UInt64) :
    ai.config.SameSettings (ai.escalate isAnomaly ms).config := by
  rw [escalate]
  cases isAnomaly with
  | true =>
    rw [if_pos rfl]
    dsimp only
    split <;> exact ⟨rfl, rfl, rfl, rfl⟩
  | false =>
    rw [if_neg Bool.false_ne_true]
    dsimp only
    split <;> exact ⟨rfl, rfl, rfl, rfl⟩

variable [FirewallFloat φ]

theorem runInference_settings (ai : FirewallAI φ) (inf : Inference φ) :
    ai.config.SameSettings (ai.runInference inf).config := by
  rw [runInference]
  split
  · exact ⟨rfl, rfl, rfl, rfl⟩
  split
  · exact ⟨rfl, rfl, rfl, rfl⟩
  split
  · exact ⟨rfl, rfl, rfl, rfl⟩
  · rename_i score isAnomaly _
    obtain ⟨-, hconfig⟩ := ai.recordResult_mode score isAnomaly inf.anomalyMs
    have hescalate := escalate_settings (ai.recordResult score isAnomaly inf.anomalyMs) isAnomaly
      inf.currentMs
    rw [hconfig] at hescalate
    dsimp only
    split
    · exact hescalate
    · rw [hconfig]
      exact ⟨rfl, rfl, rfl, rfl⟩

end FirewallAI

/-! ## The history -/

/-- A call of `run_inference`: the answer, the time, and the mode it switched to. -/
structure Consultation where
  answer : Option Bool
  timeMs : UInt64
  switched : Option Bool
  deriving DecidableEq, Repr

namespace Consultation

/-- The detector began to drop packets. -/
def escalates (c : Consultation) : Bool := c.switched = some false

/-- It went back to warnings. -/
def deescalates (c : Consultation) : Bool := c.switched = some true

/-- How many anomalies there were since the last normal answer or escalation. -/
def anomalousRun (history : List Consultation) : Nat :=
  (history.takeWhile fun c => c.answer ≠ some false ∧ ¬ c.escalates).countP (·.answer = some true)

/-- How many normal answers there were since the last anomaly. -/
def normalRun (history : List Consultation) : Nat :=
  (history.takeWhile (·.answer ≠ some true)).countP (·.answer = some false)

theorem anomalousRun_anomaly (ms : UInt64) (history : List Consultation) :
    anomalousRun (⟨some true, ms, none⟩ :: history) = anomalousRun history + 1 :=
  List.countP_cons_of_pos rfl

theorem normalRun_normal (ms : UInt64) (switched : Option Bool) (history : List Consultation) :
    normalRun (⟨some false, ms, switched⟩ :: history) = normalRun history + 1 :=
  List.countP_cons_of_pos rfl

def switches (history : List Consultation) : List Consultation :=
  history.filter (·.switched.isSome)

/-- A switch has its reasons in what came before. -/
structure Justified {φ : Type} (config : FirewallAIConfig φ) (c : Consultation)
    (older : List Consultation) : Prop where
  escalation : c.escalates = true → c.answer = some true ∧
    config.escalateConsecutive.toNat ≤ anomalousRun older + 1
  deescalation : c.deescalates = true → c.answer = some false ∧
    config.deescalateNormalCount.toNat ≤ normalRun (c :: older)

end Consultation

/-- A detector, the calls of `run_inference` so far, and those since its statistics were
reset, the newest first. -/
structure Escalation (φ : Type) where
  detector : FirewallAI φ
  history : List Consultation := []
  recent : List Consultation := []

namespace Escalation
variable {φ : Type} [FirewallFloat φ]

/-- The call of `run_inference`, as it is noted. -/
def consultation (ai : FirewallAI φ) (inf : Inference φ) : Consultation where
  answer := ai.answer inf
  timeMs := inf.currentMs
  switched :=
    let shadow := (ai.runInference inf).config.shadowMode
    if shadow = ai.config.shadowMode then none else some shadow

/-- One call. -/
def observe (s : Escalation φ) : FirewallAI.Op φ → Escalation φ
  | .runInference inf =>
    { detector := s.detector.runInference inf
      history := consultation s.detector inf :: s.history
      recent := consultation s.detector inf :: s.recent }
  | .resetStats => { s with detector := s.detector.apply .resetStats, recent := [] }
  | op => { s with detector := s.detector.apply op }

/-- The mode is not changed by hand, and the clock is positive and does not go back. -/
def Permitted (s : Escalation φ) : FirewallAI.Op φ → Prop
  | .setShadowMode _ => False
  | .runInference inf => 0 < inf.currentMs ∧ ∀ c ∈ s.history.head?, c.timeMs ≤ inf.currentMs
  | _ => True

instance (s : Escalation φ) (op : FirewallAI.Op φ) : Decidable (s.Permitted op) :=
  match op with
  | .setShadowMode _ => .isFalse id
  | .runInference inf => inferInstanceAs (Decidable (0 < inf.currentMs ∧ _))
  | .loadModel _ | .recordPacket _ | .tick | .setThreshold _ | .setInferenceIntervalMs _
  | .resetStats => .isTrue trivial

end Escalation

/-! ## What holds of a history -/

namespace FirewallAI
open Consultation
variable {φ : Type} {config : FirewallAIConfig φ} {m m' : Mode} {history recent : List Consultation}

/-- **The hysteresis**, of a detector that began with these settings. -/
structure Hysteresis (config : FirewallAIConfig φ) (m : Mode)
    (history recent : List Consultation) : Prop where
  clock : ∀ c ∈ history, 0 < c.timeMs
  chronological : history.Pairwise fun newer older => older.timeMs ≤ newer.timeMs
  /-- Any two switches are the cooldown apart. -/
  spaced : (switches history).Pairwise fun newer older =>
    older.timeMs.toNat + config.escalateCooldownMs.toNat ≤ newer.timeMs.toNat
  justified : ∀ c older, c :: older <:+ history → c.Justified config older
  alternate : (switches history).IsChain fun newer older => newer.switched ≠ older.switched
  /-- Started in shadow mode, the detector has escalated once more if it is not in it. -/
  balance : config.shadowMode = true → history.countP escalates =
    history.countP deescalates + if m.shadow then 0 else 1
  escalations : m.escalations = UInt64.ofNat (recent.countP escalates)
  deescalations : m.deescalations = UInt64.ofNat (recent.countP deescalates)
  shadow : m.shadow = ((switches history).head?.bind (·.switched)).getD config.shadowMode
  lastMs : m.lastMs = ((switches history).head?.map (·.timeMs)).getD 0
  anomalies : m.anomalies.toNat ≤ anomalousRun history
  normals : m.normals.toNat ≤ normalRun history

/-- A reset of the statistics begins a new count. -/
theorem Hysteresis.reset (h : Hysteresis config m history recent) :
    Hysteresis config { m with escalations := 0, deescalations := 0 } history [] :=
  ⟨h.clock, h.chronological, h.spaced, h.justified, h.alternate, h.balance, rfl, rfl, h.shadow,
    h.lastMs, h.anomalies, h.normals⟩

/-- Nothing in the history is later than its newest entry. -/
theorem Hysteresis.le (h : Hysteresis config m history recent) {ms : UInt64}
    (hclock : ∀ c ∈ history.head?, c.timeMs ≤ ms) {c : Consultation} (hc : c ∈ history) :
    c.timeMs ≤ ms := by
  have hchronological := h.chronological
  cases history with
  | nil => cases hc
  | cons newest older =>
    have hnewest := hclock newest rfl
    rcases List.mem_cons.mp hc with rfl | hc
    · exact hnewest
    · exact UInt64.le_trans ((List.pairwise_cons.mp hchronological).1 c hc) hnewest

/-- Outside of the cooldown, every earlier switch is far enough away. -/
theorem Hysteresis.far (h : Hysteresis config m history recent) {ms : UInt64}
    (hclock : ∀ c ∈ history.head?, c.timeMs ≤ ms) (hcool : ¬ m.InCooldown config ms)
    {c : Consultation} (hc : c ∈ switches history) :
    c.timeMs.toNat + config.escalateCooldownMs.toNat ≤ ms.toNat := by
  have hlast := h.lastMs
  cases hswitches : switches history with
  | nil =>
    rw [hswitches] at hc
    cases hc
  | cons last rest =>
    have hmem : last ∈ history := by
      have hmem : last ∈ switches history := by rw [hswitches]; exact List.mem_cons_self ..
      exact (List.mem_filter.mp hmem).1
    have hle : last.timeMs ≤ ms := h.le hclock hmem
    have hpositive := h.clock last hmem
    rw [hswitches] at hlast
    have hlast : m.lastMs = last.timeMs := hlast
    have hdistance : config.escalateCooldownMs ≤ ms - last.timeMs := by
      refine UInt64.not_lt.mp fun hlt => hcool ⟨?_, ?_⟩ <;> rw [hlast]
      · exact hpositive
      · exact hlt
    rw [UInt64.le_iff_toNat_le, UInt64.toNat_sub_of_le _ _ hle] at hdistance
    have holder : c.timeMs.toNat ≤ last.timeMs.toNat := by
      have hsorted := h.chronological.filter (fun c : Consultation => c.switched.isSome)
      rw [switches] at hswitches hc
      rw [hswitches] at hsorted hc
      rcases List.mem_cons.mp hc with rfl | hc
      · exact Nat.le_refl _
      · exact UInt64.le_iff_toNat_le.mp ((List.pairwise_cons.mp hsorted).1 c hc)
    have hle := UInt64.le_iff_toNat_le.mp hle
    omega

section
variable {answer : Option Bool} {ms : UInt64} (h : Hysteresis config m history recent)
  (hpos : 0 < ms) (hclock : ∀ c ∈ history.head?, c.timeMs ≤ ms)
include h hpos hclock

/-- A call that does not switch the mode. -/
theorem Hysteresis.stay (hshadow : m'.shadow = m.shadow) (hlast : m'.lastMs = m.lastMs)
    (hescalations : m'.escalations = m.escalations)
    (hdeescalations : m'.deescalations = m.deescalations)
    (hanomalies : m'.anomalies.toNat ≤ anomalousRun (⟨answer, ms, none⟩ :: history))
    (hnormals : m'.normals.toNat ≤ normalRun (⟨answer, ms, none⟩ :: history)) :
    Hysteresis config m' (⟨answer, ms, none⟩ :: history) (⟨answer, ms, none⟩ :: recent) := by
  have hswitches : switches (⟨answer, ms, none⟩ :: history) = switches history := rfl
  have hescalates : ∀ l, List.countP escalates (⟨answer, ms, none⟩ :: l) = l.countP escalates :=
    fun l => List.countP_cons_of_neg Bool.false_ne_true
  have hdeescalates : ∀ l,
      List.countP deescalates (⟨answer, ms, none⟩ :: l) = l.countP deescalates :=
    fun l => List.countP_cons_of_neg Bool.false_ne_true
  constructor
  · exact List.forall_mem_cons.mpr ⟨hpos, h.clock⟩
  · exact List.pairwise_cons.mpr ⟨fun c hc => h.le hclock hc, h.chronological⟩
  · exact h.spaced
  · intro c older hsuffix
    rcases List.suffix_cons_iff.mp hsuffix with heq | hsuffix
    · cases heq
      exact ⟨fun h => (nomatch h), fun h => (nomatch h)⟩
    · exact h.justified c older hsuffix
  · exact h.alternate
  · rw [hescalates, hdeescalates, hshadow]
    exact h.balance
  · rw [hescalates, hescalations, h.escalations]
  · rw [hdeescalates, hdeescalations, h.deescalations]
  · rw [hswitches, hshadow]
    exact h.shadow
  · rw [hswitches, hlast]
    exact h.lastMs
  · exact hanomalies
  · exact hnormals

/-- A switch of the mode, with its reasons, outside of the cooldown. -/
theorem Hysteresis.switch (hcool : ¬ m.InCooldown config ms) (hshadow : m'.shadow = !m.shadow)
    (hlast : m'.lastMs = ms) (hanomalies : m'.anomalies = 0) (hnormals : m'.normals = 0)
    (hescalations : m'.escalations = m.escalations + if m.shadow then 1 else 0)
    (hdeescalations : m'.deescalations = m.deescalations + if m.shadow then 0 else 1)
    (hjustified : Consultation.Justified config ⟨answer, ms, some !m.shadow⟩ history) :
    Hysteresis config m' (⟨answer, ms, some !m.shadow⟩ :: history)
      (⟨answer, ms, some !m.shadow⟩ :: recent) := by
  have hswitches : switches (⟨answer, ms, some !m.shadow⟩ :: history) =
      ⟨answer, ms, some !m.shadow⟩ :: switches history := rfl
  have hescalates : ∀ l, List.countP escalates (⟨answer, ms, some !m.shadow⟩ :: l) =
      l.countP escalates + if m.shadow then 1 else 0 := by
    intro l
    rw [List.countP_cons]
    cases m.shadow <;> rfl
  have hdeescalates : ∀ l, List.countP deescalates (⟨answer, ms, some !m.shadow⟩ :: l) =
      l.countP deescalates + if m.shadow then 0 else 1 := by
    intro l
    rw [List.countP_cons]
    cases m.shadow <;> rfl
  constructor
  · exact List.forall_mem_cons.mpr ⟨hpos, h.clock⟩
  · exact List.pairwise_cons.mpr ⟨fun c hc => h.le hclock hc, h.chronological⟩
  · rw [hswitches]
    exact List.pairwise_cons.mpr ⟨fun c hc => h.far hclock hcool hc, h.spaced⟩
  · intro c older hsuffix
    rcases List.suffix_cons_iff.mp hsuffix with heq | hsuffix
    · cases heq
      exact hjustified
    · exact h.justified c older hsuffix
  · -- the latest switch was to the mode that is left now
    have hshadow := h.shadow
    have halternate := h.alternate
    rw [hswitches]
    cases hlatest : switches history with
    | nil => exact .singleton _
    | cons latest rest =>
      have hsome : latest.switched.isSome = true := by
        have hmem : latest ∈ switches history := by rw [hlatest]; exact List.mem_cons_self ..
        exact (List.mem_filter.mp hmem).2
      obtain ⟨b, hb⟩ := Option.isSome_iff_exists.mp hsome
      rw [hlatest] at hshadow halternate
      refine halternate.cons_cons ?_
      have hshadow : m.shadow = b := by
        rw [hshadow]
        exact (congrArg (Option.getD · config.shadowMode) hb)
      have hflip : ∀ b : Bool, some (!b) ≠ some b := by decide
      rw [hb, ← hshadow]
      exact hflip _
  · intro hstart
    have hbalance := h.balance hstart
    rw [hescalates, hdeescalates, hshadow, hbalance]
    cases m.shadow <;> simp
  · rw [hescalates, hescalations, h.escalations, UInt64.ofNat_add]
    cases m.shadow <;> rfl
  · rw [hdeescalates, hdeescalations, h.deescalations, UInt64.ofNat_add]
    cases m.shadow <;> rfl
  · rw [hswitches, hshadow]
    rfl
  · rw [hswitches, hlast]
    rfl
  · rw [hanomalies]
    exact Nat.zero_le _
  · rw [hnormals]
    exact Nat.zero_le _

/-- **What an inference does keeps the hysteresis.** -/
theorem Hysteresis.consulted {c : FirewallAIConfig φ} (hsame : config.SameSettings c)
    (hc : Consulted c ms m answer m') :
    let entry : Consultation :=
      ⟨answer, ms, if m'.shadow = m.shadow then none else some m'.shadow⟩
    Hysteresis config m' (entry :: history) (entry :: recent) := by
  have hanomalies := h.anomalies
  have hnormals := h.normals
  have hsucc : ∀ n : UInt32, (n + 1).toNat ≤ n.toNat + 1 := by
    intro n
    rw [UInt32.toNat_add]
    exact Nat.mod_le _ _
  have hcool : ¬ m.InCooldown c ms → ¬ m.InCooldown config ms := by
    rw [Mode.InCooldown, hsame.cooldown]
    exact id
  cases hc with
  | skipped =>
    rw [if_pos rfl]
    exact h.stay hpos hclock rfl rfl rfl rfl hanomalies hnormals
  | anomaly =>
    rw [if_pos rfl]
    refine h.stay hpos hclock rfl rfl rfl rfl ?_ (Nat.zero_le _)
    rw [anomalousRun_anomaly]
    exact (hsucc _).trans (Nat.add_le_add_right hanomalies 1)
  | normal =>
    rw [if_pos rfl]
    refine h.stay hpos hclock rfl rfl rfl rfl (Nat.zero_le _) ?_
    rw [normalRun_normal]
    exact (hsucc _).trans (Nat.add_le_add_right hnormals 1)
  | escalated hshadow hcooled hcount =>
    have hentry : (if false = m.shadow then none else some false) = some !m.shadow := by
      rw [hshadow]
      rfl
    dsimp only
    rw [hentry]
    refine h.switch hpos hclock (hcool hcooled) ?_ rfl rfl rfl ?_ ?_ ⟨fun _ => ⟨rfl, ?_⟩, ?_⟩
    · rw [hshadow]; rfl
    · rw [hshadow]; rfl
    · rw [hshadow]; exact (UInt64.add_zero _).symm
    · rw [← hsame.escalate]
      have hcount := UInt32.le_iff_toNat_le.mp hcount
      exact hcount.trans ((hsucc _).trans (Nat.add_le_add_right hanomalies 1))
    · rw [hshadow]
      exact fun hno => (nomatch hno)
  | deescalated hshadow hcooled hcount =>
    have hentry : (if true = m.shadow then none else some true) = some !m.shadow := by
      rw [hshadow]
      rfl
    dsimp only
    rw [hentry]
    refine h.switch hpos hclock (hcool hcooled) ?_ rfl rfl rfl ?_ ?_ ⟨?_, fun _ => ⟨rfl, ?_⟩⟩
    · rw [hshadow]; rfl
    · rw [hshadow]; exact (UInt64.add_zero _).symm
    · rw [hshadow]; rfl
    · rw [hshadow]
      exact fun hno => (nomatch hno)
    · rw [← hsame.deescalate, normalRun_normal]
      have hcount := UInt32.le_iff_toNat_le.mp hcount
      exact hcount.trans ((hsucc _).trans (Nat.add_le_add_right hnormals 1))

end

end FirewallAI

/-! ## Runs -/

namespace Escalation
variable {φ : Type} [FirewallFloat φ]

/-- A new detector. -/
def start (config : FirewallAIConfig φ) (loads : Bool) : Escalation φ where
  detector := FirewallAI.create config loads

/-- The hysteresis, and the settings it is about. -/
structure Steady (config : FirewallAIConfig φ) (s : Escalation φ) : Prop where
  settings : config.SameSettings s.detector.config
  hysteresis : FirewallAI.Hysteresis config s.detector.mode s.history s.recent

theorem start_steady (config : FirewallAIConfig φ) (loads : Bool) :
    (start config loads).Steady config := by
  refine ⟨⟨rfl, rfl, rfl, rfl⟩, ?_⟩
  constructor
  · exact fun c hc => (nomatch hc)
  · exact List.Pairwise.nil
  · exact List.Pairwise.nil
  · exact fun c older hsuffix => (nomatch List.suffix_nil.mp hsuffix)
  · exact .nil
  · intro hstart
    show 0 = 0 + if config.shadowMode then 0 else 1
    rw [hstart]
    rfl
  · rfl
  · rfl
  · rfl
  · rfl
  · exact Nat.le_refl _
  · exact Nat.le_refl _

/-- A permitted call keeps the hysteresis. -/
theorem observe_steady {config : FirewallAIConfig φ} (hauto : config.autoEscalate = true)
    (s : Escalation φ) (op : FirewallAI.Op φ) (h : s.Steady config) (hop : s.Permitted op) :
    (s.observe op).Steady config := by
  obtain ⟨hsame, hhysteresis⟩ := h
  cases op with
  | setShadowMode => exact hop.elim
  | loadModel | recordPacket | tick => exact ⟨hsame, hhysteresis⟩
  | setThreshold | setInferenceIntervalMs =>
    exact ⟨⟨hsame.auto, hsame.escalate, hsame.deescalate, hsame.cooldown⟩, hhysteresis⟩
  | resetStats => exact ⟨hsame, hhysteresis.reset⟩
  | runInference inf =>
    obtain ⟨hpos, hclock⟩ := hop
    have hauto : s.detector.config.autoEscalate = true := hsame.auto.trans hauto
    have hsame' := s.detector.runInference_settings inf
    exact ⟨⟨hsame'.auto.trans hsame.auto, hsame'.escalate.trans hsame.escalate,
        hsame'.deescalate.trans hsame.deescalate, hsame'.cooldown.trans hsame.cooldown⟩,
      hhysteresis.consulted hpos hclock hsame (s.detector.runInference_consulted hauto inf)⟩

/-- **The escalation has hysteresis**, in every run in which the mode is not changed by hand
and the clock is positive and does not go back, whatever the model answers. -/
theorem escalation_hysteresis (config : FirewallAIConfig φ) (hauto : config.autoEscalate = true)
    (loads : Bool) (ops : List (FirewallAI.Op φ))
    (h : GuardedRun.Meets observe Permitted (start config loads) ops) :
    FirewallAI.Hysteresis config (GuardedRun.run observe (start config loads) ops).detector.mode
      (GuardedRun.run observe (start config loads) ops).history
      (GuardedRun.run observe (start config loads) ops).recent :=
  (h.invariant (P := Steady config) (observe_steady hauto) (start_steady config loads)).hysteresis

/-- Two anomalies escalate, and a normal answer ends it. -/
def briskConfig : FirewallAIConfig Unit where
  modelPath := "model"
  anomalyThreshold := ()
  autoEscalate := true
  escalateConsecutive := 2
  deescalateNormalCount := 1
  escalateCooldownMs := 10

/-- The first normal answer falls within the cooldown. -/
def briskRun : List (FirewallAI.Op Unit) :=
  [.recordPacket ⟨0, 0, 0, 0, 6, 0, 40, 0, 0⟩,
    .runInference ⟨some ((), true), 1, 1⟩, .runInference ⟨none, 2, 2⟩,
    .runInference ⟨some ((), true), 3, 3⟩, .runInference ⟨some ((), false), 4, 4⟩,
    .runInference ⟨some ((), false), 13, 13⟩]

theorem escalation_hysteresis_brisk :
    (Consultation.switches (GuardedRun.run observe (start briskConfig true) briskRun).history).map
        (·.timeMs) = [13, 3] ∧
      FirewallAI.Hysteresis briskConfig
        (GuardedRun.run observe (start briskConfig true) briskRun).detector.mode
        (GuardedRun.run observe (start briskConfig true) briskRun).history
        (GuardedRun.run observe (start briskConfig true) briskRun).recent := by
  refine ⟨by decide +kernel, ?_⟩
  exact escalation_hysteresis briskConfig rfl true briskRun (by decide +kernel)

end Escalation
end NeuStack
