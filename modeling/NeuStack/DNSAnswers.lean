import NeuStack.DNSClient
import NeuStack.GuardedRun
import Mathlib.Data.List.Perm.Basic

/-! # Every DNS query is answered once

In a run whose steps are orderly, a query stays in the map until its callback is
invoked, and is then gone.  What a step does to the map is told by `lookup`: a query
is added under a free id, is sent once more, or leaves.  A sweep of the timer does one
of the last two to every query that is overdue (`lookup_sweep`).

A query in the map has been sent once more often than it has been retried.  So when it
fails it has been sent four times; and when four ticks have found it overdue, it has
been answered (`left_run`).
-/
namespace NeuStack
namespace DNSClient
variable {app : DNSApplication} {c : DNSClient} {q : Nat} {id : UInt16} {p : PendingQuery}

/-! ## The log -/

theorem answers_emit (q : Nat) (ev : DNSEvent) (c : DNSClient) :
    (c.emit ev).answers q = c.answers q + match ev with
      | .answered q' _ _ => if q' = q then 1 else 0
      | _ => 0 := by
  cases ev with
  | answered q' response origin => simp [answers, emit, List.countP_append, List.countP_singleton]
  | sent q' packet => simp [answers, emit, List.countP_append]
  | touched => simp [answers, emit, List.countP_append]

theorem sends_emit (q : Nat) (ev : DNSEvent) (c : DNSClient) :
    (c.emit ev).sends q = c.sends q + match ev with
      | .sent q' _ => if q' = q then 1 else 0
      | _ => 0 := by
  cases ev with
  | answered q' response origin => simp [sends, emit, List.countP_append]
  | sent q' packet => simp [sends, emit, List.countP_append, List.countP_singleton]
  | touched => simp [sends, emit, List.countP_append]

/-! ## The invariant -/

/-- The query under an id. -/
abbrev At (c : DNSClient) (id : UInt16) (p : PendingQuery) : Prop := c.pending.lookup id = some p

structure Inv (c : DNSClient) : Prop where
  keys : (c.pending.map (·.1)).Nodup
  distinct : ∀ id id' p p', c.At id p → c.At id' p' → p.callback = p'.callback → id = id'
  passed : ∀ id p, c.At id p → p.callback < c.calls
  /-- A query in the map has been sent, and not been answered. -/
  waiting : ∀ id p, c.At id p →
    c.sends p.callback = p.retries + 1 ∧ p.retries ≤ 3 ∧ c.answers p.callback = 0
  gone : ∀ q < c.calls, (∀ id p, c.At id p → p.callback ≠ q) → c.answers q = 1
  future : ∀ q, c.calls ≤ q → c.answers q = 0 ∧ c.sends q = 0
  genuine : ∀ q response origin, .answered q (some response) origin ∈ c.log → origin = some q
  exhausted : ∀ q origin, .answered q none origin ∈ c.log → c.sends q = 4
  untouched : .touched ∉ c.log

theorem init_inv (dnsServer : UInt32) : (init dnsServer).Inv :=
  ⟨List.nodup_nil, nofun, nofun, nofun, nofun, fun _ _ => ⟨rfl, rfl⟩, nofun, nofun, nofun⟩

theorem Inv.pending_iff (h : c.Inv) : c.Pending q ↔ ∃ id p, c.At id p ∧ p.callback = q := by
  constructor
  · rintro ⟨id, p, hmem, heq⟩
    exact ⟨id, p, (Table.lookup_iff h.keys).mpr hmem, heq⟩
  · rintro ⟨id, p, hat, heq⟩
    exact ⟨id, p, Table.mem_of_lookup hat, heq⟩

theorem Inv.answeredOnce (h : c.Inv) : c.AnsweredOnce := by
  refine ⟨fun q hq => ?_, fun q hq => (h.future q hq).1, h.genuine, h.exhausted, h.untouched⟩
  by_cases hpending : c.Pending q
  · obtain ⟨id, p, hat, rfl⟩ := h.pending_iff.mp hpending
    exact Or.inl ⟨hpending, (h.waiting id p hat).2.2⟩
  · refine Or.inr ⟨hpending, h.gone q hq fun id p hat heq => ?_⟩
    exact hpending (h.pending_iff.mpr ⟨id, p, hat, heq⟩)

/-! ## What a step does -/

theorem lookup_store (id id' : UInt16) (p : PendingQuery) (c : DNSClient) :
    (c.store id p).pending.lookup id' = if id' = id then some p else c.pending.lookup id' := by
  rw [store, List.lookup_cons, Table.lookup_erase]
  by_cases heq : id' = id
  · rw [beq_iff_eq.mpr heq]
    exact (if_pos heq).symm
  · rw [if_neg heq, if_neg heq, beq_eq_false_iff_ne.mpr heq]

theorem lookup_erased (id id' : UInt16) (c : DNSClient) :
    (c.erase id).pending.lookup id' = if id' = id then none else c.pending.lookup id' :=
  Table.lookup_erase ..

theorem nodup_store (h : (c.pending.map (·.1)).Nodup) (id : UInt16) (p : PendingQuery) :
    ((c.store id p).pending.map (·.1)).Nodup := by
  rw [store, List.map_cons, List.nodup_cons]
  refine ⟨fun hmem => ?_, Table.nodup_erase h⟩
  obtain ⟨e, he, heq⟩ := List.mem_map.mp hmem
  exact (Table.mem_erase.mp he).2 heq

/-- **A query is added**, under an id that is free. -/
theorem Inv.resolve (h : c.Inv) (call : DNSCall) (hfree : c.pending.lookup c.nextId = none) :
    (c.resolveAsync call).Inv := by
  generalize hquery : ({
    id := c.nextId, hostname := call.hostname, type := call.type
    callback := c.calls, sendTime := call.now } : PendingQuery) = p
  have hcallback : p.callback = c.calls := by rw [← hquery]
  have hretries : p.retries = 0 := by rw [← hquery]
  have hat : ∀ id' p', (c.resolveAsync call).At id' p' ↔
      id' = c.nextId ∧ p' = p ∨ c.At id' p' := by
    intro id' p'
    show (DNSClient.store c.nextId _ _).pending.lookup id' = some p' ↔ _
    rw [lookup_store, hquery]
    by_cases heq : id' = c.nextId
    · rw [if_pos heq, heq, At, hfree]
      exact ⟨fun hp => Or.inl ⟨rfl, (Option.some.inj hp).symm⟩, by
        rintro (⟨-, rfl⟩ | hnone) <;> trivial⟩
    · rw [if_neg heq]
      exact ⟨Or.inr, fun hp => hp.resolve_left fun hn => heq hn.1⟩
  have hcalls : (c.resolveAsync call).calls = c.calls + 1 := rfl
  have hlog : (c.resolveAsync call).log = c.log ++ [.sent c.calls _] := rfl
  have hanswers : ∀ q, (c.resolveAsync call).answers q = c.answers q := fun q =>
    answers_emit q (.sent c.calls _) _
  have hsends : ∀ q, (c.resolveAsync call).sends q =
      c.sends q + if c.calls = q then 1 else 0 := fun q => sends_emit q (.sent c.calls _) _
  have hpassed : ∀ id' p', c.At id' p' → p'.callback ≠ c.calls := fun id' p' hp =>
    Nat.ne_of_lt (h.passed id' p' hp)
  obtain ⟨hnone, hunsent⟩ := h.future c.calls (Nat.le_refl _)
  refine ⟨nodup_store h.keys _ _, ?_, ?_, ?_, ?_, ?_, ?_, ?_, ?_⟩
  · intro id₁ id₂ p₁ p₂ h₁ h₂ heq
    rcases (hat _ _).mp h₁ with ⟨rfl, rfl⟩ | hold₁ <;>
      rcases (hat _ _).mp h₂ with ⟨rfl, rfl⟩ | hold₂
    · rfl
    · exact absurd (heq.symm.trans hcallback) (hpassed _ _ hold₂)
    · exact absurd (heq.trans hcallback) (hpassed _ _ hold₁)
    · exact h.distinct _ _ _ _ hold₁ hold₂ heq
  · intro id' p' hp
    rw [hcalls]
    rcases (hat _ _).mp hp with ⟨-, rfl⟩ | hp
    · omega
    · exact Nat.lt_succ_of_lt (h.passed _ _ hp)
  · intro id' p' hp
    rw [hanswers, hsends]
    rcases (hat _ _).mp hp with ⟨-, rfl⟩ | hp
    · rw [hcallback, hunsent, hretries, if_pos rfl]
      exact ⟨rfl, Nat.zero_le _, hnone⟩
    · rw [if_neg (hpassed _ _ hp).symm]
      exact h.waiting _ _ hp
  · intro q hq hgone
    rw [hanswers]
    refine h.gone q ?_ fun id' p' hp => hgone id' p' ((hat _ _).mpr (Or.inr hp))
    have hne : p.callback ≠ q := hgone _ _ ((hat _ _).mpr (Or.inl ⟨rfl, rfl⟩))
    omega
  · intro q hq
    rw [hanswers, hsends, if_neg (by omega)]
    exact h.future q (by omega)
  · intro q response origin hmem
    rw [hlog, List.mem_append, List.mem_singleton] at hmem
    exact h.genuine q response origin (hmem.resolve_right nofun)
  · intro q origin hmem
    rw [hlog, List.mem_append, List.mem_singleton] at hmem
    have hmem := hmem.resolve_right nofun
    have hsent := h.exhausted q origin hmem
    rw [hsends, if_neg, hsent]
    rintro rfl
    omega
  · intro hmem
    rw [hlog, List.mem_append, List.mem_singleton] at hmem
    exact h.untouched (hmem.resolve_right nofun)

/-- **A query is answered**, and leaves the map. -/
theorem Inv.answer (h : c.Inv) (hat : c.At id p) {response : Option DNSResponse}
    {origin : Option Nat} (hgenuine : response.isSome → origin = some p.callback)
    (hexhausted : response = none → p.retries = 3) :
    ((c.emit (.answered p.callback response origin)).erase id).Inv := by
  have hat' : ∀ id' p', ((c.emit (.answered p.callback response origin)).erase id).At id' p' ↔
      c.At id' p' ∧ id' ≠ id := by
    intro id' p'
    rw [At, lookup_erased]
    by_cases heq : id' = id
    · rw [if_pos heq]
      exact iff_of_false nofun fun hp => hp.2 heq
    · rw [if_neg heq]
      exact (and_iff_left heq).symm
  have hlog : ((c.emit (.answered p.callback response origin)).erase id).log =
    c.log ++ [.answered p.callback response origin] := rfl
  have hanswers : ∀ q, ((c.emit (.answered p.callback response origin)).erase id).answers q =
      c.answers q + if p.callback = q then 1 else 0 := fun q => answers_emit ..
  have hsends : ∀ q, ((c.emit (.answered p.callback response origin)).erase id).sends q =
      c.sends q := fun q => sends_emit ..
  obtain ⟨hsent, hretries, hnone⟩ := h.waiting id p hat
  have hother : ∀ id' p', c.At id' p' → id' ≠ id → p.callback ≠ p'.callback :=
    fun id' p' hp hne heq => hne (h.distinct _ _ _ _ hp hat heq.symm)
  refine ⟨Table.nodup_erase h.keys, ?_, ?_, ?_, ?_, ?_, ?_, ?_, ?_⟩
  · intro id₁ id₂ p₁ p₂ h₁ h₂ heq
    exact h.distinct _ _ _ _ ((hat' _ _).mp h₁).1 ((hat' _ _).mp h₂).1 heq
  · intro id' p' hp
    exact h.passed _ _ ((hat' _ _).mp hp).1
  · intro id' p' hp
    obtain ⟨hp, hne⟩ := (hat' _ _).mp hp
    rw [hanswers, hsends, if_neg (hother _ _ hp hne)]
    exact h.waiting _ _ hp
  · intro q hq hgone
    rw [hanswers]
    by_cases heq : p.callback = q
    · rw [← heq, hnone, if_pos rfl]
    · rw [if_neg heq]
      refine h.gone q hq fun id' p' hp hcallback => ?_
      by_cases hid : id' = id
      · rw [hid, At, hat] at hp
        exact heq (Option.some.inj hp ▸ hcallback)
      · exact hgone id' p' ((hat' _ _).mpr ⟨hp, hid⟩) hcallback
  · intro q hq
    have hlt : p.callback < c.calls := h.passed _ _ hat
    have hq : c.calls ≤ q := hq
    rw [hanswers, hsends, if_neg (by omega)]
    exact h.future q hq
  · intro q response' origin' hmem
    rw [hlog, List.mem_append, List.mem_singleton] at hmem
    rcases hmem with hmem | heq
    · exact h.genuine q response' origin' hmem
    · cases heq
      exact hgenuine rfl
  · intro q origin' hmem
    rw [hsends]
    rw [hlog, List.mem_append, List.mem_singleton] at hmem
    rcases hmem with hmem | heq
    · exact h.exhausted q origin' hmem
    · cases heq
      rw [hsent, hexhausted rfl]
  · intro hmem
    rw [hlog, List.mem_append, List.mem_singleton] at hmem
    exact h.untouched (hmem.resolve_right nofun)

/-- **A query is sent once more.** -/
theorem Inv.retry (h : c.Inv) (hat : c.At id p) (hlt : p.retries < 3) (now : Nat)
    (packet : List UInt8) :
    ((c.store id { p with retries := p.retries + 1, sendTime := now }).emit
      (.sent p.callback packet)).Inv := by
  generalize hp' : ({ p with retries := p.retries + 1, sendTime := now } : PendingQuery) = p'
  have hcallback : p'.callback = p.callback := by rw [← hp']
  have hretries : p'.retries = p.retries + 1 := by rw [← hp']
  have hat' : ∀ id₁ p₁, ((c.store id p').emit (.sent p.callback packet)).At id₁ p₁ ↔
      id₁ = id ∧ p₁ = p' ∨ c.At id₁ p₁ ∧ id₁ ≠ id := by
    intro id₁ p₁
    show (c.store id p').pending.lookup id₁ = some p₁ ↔ _
    rw [lookup_store]
    by_cases heq : id₁ = id
    · rw [if_pos heq]
      exact ⟨fun hp => Or.inl ⟨heq, (Option.some.inj hp).symm⟩, by
        rintro (⟨-, rfl⟩ | hne)
        · rfl
        · exact absurd heq hne.2⟩
    · rw [if_neg heq]
      exact ⟨fun hp => Or.inr ⟨hp, heq⟩, fun hp => (hp.resolve_left fun hn => heq hn.1).1⟩
  have hlog : ((c.store id p').emit (.sent p.callback packet)).log =
    c.log ++ [.sent p.callback packet] := rfl
  have hanswers : ∀ q, ((c.store id p').emit (.sent p.callback packet)).answers q = c.answers q :=
    fun q => answers_emit ..
  have hsends : ∀ q, ((c.store id p').emit (.sent p.callback packet)).sends q =
      c.sends q + if p.callback = q then 1 else 0 := fun q => sends_emit ..
  obtain ⟨hsent, hle, hnone⟩ := h.waiting id p hat
  have hother : ∀ id' p', c.At id' p' → id' ≠ id → p.callback ≠ p'.callback :=
    fun id' p' hp hne heq => hne (h.distinct _ _ _ _ hp hat heq.symm)
  refine ⟨nodup_store h.keys _ _, ?_, ?_, ?_, ?_, ?_, ?_, ?_, ?_⟩
  · intro id₁ id₂ p₁ p₂ h₁ h₂ heq
    rcases (hat' _ _).mp h₁ with ⟨rfl, rfl⟩ | ⟨hold₁, hne₁⟩ <;>
      rcases (hat' _ _).mp h₂ with ⟨rfl, rfl⟩ | ⟨hold₂, hne₂⟩
    · rfl
    · exact absurd (hcallback.symm.trans heq) (hother _ _ hold₂ hne₂)
    · exact absurd (hcallback.symm.trans heq.symm) (hother _ _ hold₁ hne₁)
    · exact h.distinct _ _ _ _ hold₁ hold₂ heq
  · intro id₁ p₁ hp
    rcases (hat' _ _).mp hp with ⟨-, rfl⟩ | ⟨hp, -⟩
    · rw [hcallback]
      exact h.passed _ _ hat
    · exact h.passed _ _ hp
  · intro id₁ p₁ hp
    rw [hanswers, hsends]
    rcases (hat' _ _).mp hp with ⟨-, rfl⟩ | ⟨hp, hne⟩
    · rw [hcallback, if_pos rfl, hsent, hretries]
      exact ⟨rfl, hlt, hnone⟩
    · rw [if_neg (hother _ _ hp hne)]
      exact h.waiting _ _ hp
  · intro q hq hgone
    rw [hanswers]
    refine h.gone q hq fun id₁ p₁ hp heq => ?_
    by_cases hid : id₁ = id
    · rw [hid, At, hat] at hp
      obtain rfl := Option.some.inj hp
      exact hgone id p' ((hat' _ _).mpr (Or.inl ⟨rfl, rfl⟩)) (hcallback.trans heq)
    · exact hgone id₁ p₁ ((hat' _ _).mpr (Or.inr ⟨hp, hid⟩)) heq
  · intro q hq
    have hpassed : p.callback < c.calls := h.passed _ _ hat
    have hq : c.calls ≤ q := hq
    rw [hanswers, hsends, if_neg (by omega)]
    exact h.future q hq
  · intro q response origin hmem
    rw [hlog, List.mem_append, List.mem_singleton] at hmem
    exact h.genuine q response origin (hmem.resolve_right nofun)
  · intro q origin hmem
    rw [hlog, List.mem_append, List.mem_singleton] at hmem
    have hsent' := h.exhausted q origin (hmem.resolve_right nofun)
    rw [hsends, if_neg, hsent']
    rintro rfl
    omega
  · intro hmem
    rw [hlog, List.mem_append, List.mem_singleton] at hmem
    exact h.untouched (hmem.resolve_right nofun)

theorem invoke_quiet {response : Option DNSResponse} (origin : Option Nat)
    (hquiet : app c.log q response = []) :
    c.invoke app q response origin = c.emit (.answered q response origin) := by
  rw [invoke, hquiet]
  rfl

/-- A datagram is dropped, or answers a query. -/
theorem receive_cases {srcIp : UInt32} {srcPort : UInt16} {mem : Memory} {len origin : Nat}
    (hok : c.Orderly app (.receive srcIp srcPort mem len origin)) :
    c.onReceive app srcIp srcPort mem len origin = c ∨ ∃ id p response, c.At id p ∧
      c.onReceive app srcIp srcPort mem len origin =
        (c.emit (.answered p.callback (some response) (some p.callback))).erase id := by
  unfold onReceive
  split
  · exact Or.inl rfl
  rename_i hsource
  rw [not_or, not_not, not_not] at hsource
  split
  · exact Or.inl rfl
  rename_i response hparse
  split
  · exact Or.inl rfl
  rename_i p hat
  obtain ⟨rfl, hquiet⟩ := hok response p hsource.1 hsource.2 hparse hat
  exact Or.inr ⟨response.id, p, response, hat, by rw [invoke_quiet _ hquiet]⟩

theorem Inv.receive (h : c.Inv) {srcIp : UInt32} {srcPort : UInt16} {mem : Memory}
    {len origin : Nat} (hok : c.Orderly app (.receive srcIp srcPort mem len origin)) :
    (c.onReceive app srcIp srcPort mem len origin).Inv := by
  rcases receive_cases hok with heq | ⟨id, p, response, hat, heq⟩
  · rw [heq]
    exact h
  · rw [heq]
    exact h.answer hat (fun _ => rfl) nofun

/-! ## The sweep -/

/-- What a tick leaves of a query. -/
def visited (now : Nat) (p : PendingQuery) : Option PendingQuery :=
  if Overdue now p then
    if 3 ≤ p.retries then none else some { p with retries := p.retries + 1, sendTime := now }
  else some p

theorem Inv.visit (h : c.Inv) {now : Nat} (hquiet : ∀ p, c.pending.lookup id = some p →
      Overdue now p → 3 ≤ p.retries → app c.log p.callback none = []) :
    (c.visit app now id).Inv ∧ (c.visit app now id).calls = c.calls ∧
      ∀ id', (c.visit app now id).pending.lookup id' =
        if id' = id then (c.pending.lookup id).bind (visited now) else c.pending.lookup id' := by
  unfold DNSClient.visit
  cases hat : c.pending.lookup id with
  | none =>
    refine ⟨h, rfl, fun id' => ?_⟩
    dsimp only
    split
    · rename_i heq
      rw [heq, hat]
      rfl
    · rfl
  | some p =>
    dsimp only [Option.bind_some]
    rw [visited]
    split
    · rename_i hoverdue
      split
      · rename_i hspent
        rw [invoke_quiet none (hquiet p hat hoverdue hspent)]
        obtain ⟨-, hretries, -⟩ := h.waiting id p hat
        exact ⟨h.answer hat nofun fun _ => Nat.le_antisymm hretries hspent, rfl,
          fun id' => lookup_erased ..⟩
      · rename_i hleft
        exact ⟨h.retry hat (Nat.not_le.mp hleft) now _, rfl, fun id' => lookup_store ..⟩
    · refine ⟨h, rfl, fun id' => ?_⟩
      split
      · rename_i heq
        rw [heq, hat]
      · rfl

/-- **A sweep** visits every query that it comes by. -/
theorem lookup_sweep {now : Nat} {ids : List UInt16} (h : c.Inv) (hids : ids.Nodup)
    (hquiet : SweepQuiet app now ids c) :
    (ids.foldl (DNSClient.visit app now) c).Inv ∧
      (ids.foldl (DNSClient.visit app now) c).calls = c.calls ∧
      ∀ id', (ids.foldl (DNSClient.visit app now) c).pending.lookup id' =
        if id' ∈ ids then (c.pending.lookup id').bind (visited now) else c.pending.lookup id' := by
  induction ids generalizing c with
  | nil => exact ⟨h, rfl, fun id' => (if_neg List.not_mem_nil).symm⟩
  | cons id ids ih =>
    obtain ⟨hvisit, hrest⟩ := hquiet
    obtain ⟨hnot, hids⟩ := List.nodup_cons.mp hids
    obtain ⟨hinv, hcalls, hlookup⟩ := h.visit hvisit
    obtain ⟨hlast, hsame, hswept⟩ := ih hinv hids hrest
    refine ⟨hlast, hsame.trans hcalls, fun id' => ?_⟩
    rw [List.foldl_cons, hswept, hlookup]
    by_cases heq : id' = id
    · rw [if_pos heq, heq, if_neg hnot, if_pos (List.mem_cons_self ..)]
    · rw [if_neg heq]
      simp only [List.mem_cons, heq, false_or]

theorem Inv.timer (h : c.Inv) {now : Nat} {order : List UInt16}
    (hok : c.Orderly app (.timer now order)) :
    (c.onTimer app now order).Inv ∧ (c.onTimer app now order).calls = c.calls ∧
      ∀ id', (c.onTimer app now order).pending.lookup id' =
        (c.pending.lookup id').bind (visited now) := by
  have hperm : (if order.isPerm (c.pending.map (·.1)) then order
      else c.pending.map (·.1)).Perm (c.pending.map (·.1)) := by
    split
    · rename_i hperm
      exact List.isPerm_iff.mp hperm
    · exact .refl _
  have hok : SweepQuiet app now _ c := hok
  unfold onTimer
  dsimp only
  generalize (if order.isPerm (c.pending.map (·.1)) then order else c.pending.map (·.1)) = ids at *
  obtain ⟨hinv, hcalls, hlookup⟩ := lookup_sweep h (hperm.nodup_iff.mpr h.keys) hok
  refine ⟨hinv, hcalls, fun id' => ?_⟩
  rw [hlookup]
  split
  · rfl
  · rename_i hnot
    rw [hperm.mem_iff] at hnot
    cases hat : c.pending.lookup id' with
    | none => rfl
    | some p => exact absurd (List.mem_map_of_mem (f := (·.1)) (Table.mem_of_lookup hat)) hnot

theorem Inv.step (h : c.Inv) (x : Input) (hok : c.Orderly app x) : (c.step app x).Inv := by
  cases x with
  | resolve call => exact h.resolve call hok
  | receive srcIp srcPort mem len origin => exact h.receive hok
  | timer now order => exact (h.timer hok).1

/-! ## How long a query waits -/

/-- `n` more ticks that find the query overdue end it. -/
def Left (q : Nat) (c : DNSClient) (n : Nat) : Prop :=
  c.calls ≤ q ∧ n = 4 ∨ (∃ id p, c.At id p ∧ p.callback = q ∧ n + p.retries = 4) ∨
    q < c.calls ∧ ¬ c.Pending q ∧ n = 0

theorem findsOverdue_iff (h : c.Inv) (hat : c.At id p) {now : Nat} {order : List UInt16} :
    c.FindsOverdue p.callback (.timer now order) ↔ Overdue now p := by
  constructor
  · rintro ⟨id', p', hmem, heq, hoverdue⟩
    have hat' : c.At id' p' := (Table.lookup_iff h.keys).mpr hmem
    obtain rfl := h.distinct _ _ _ _ hat' hat heq
    rw [At, hat] at hat'
    rwa [Option.some.inj hat']
  · exact fun hoverdue => ⟨id, p, Table.mem_of_lookup hat, rfl, hoverdue⟩

theorem not_findsOverdue (hq : ¬ c.Pending q) (x : Input) : ¬ c.FindsOverdue q x := by
  cases x with
  | resolve call => exact id
  | receive srcIp srcPort mem len origin => exact id
  | timer now order => exact fun ⟨id, p, hmem, heq, _⟩ => hq ⟨id, p, hmem, heq⟩

/-- Every query in the map after a step was there before, or is new. -/
theorem step_at (h : c.Inv) (x : Input) (hok : c.Orderly app x) :
    c.calls ≤ (c.step app x).calls ∧ ∀ id p, (c.step app x).At id p →
      (∃ p₀, c.At id p₀ ∧ p₀.callback = p.callback) ∨ c.calls ≤ p.callback := by
  cases x with
  | resolve call =>
    refine ⟨Nat.le_succ _, fun id p hat => ?_⟩
    have hat : (c.store c.nextId _).pending.lookup id = some p := hat
    rw [lookup_store] at hat
    split at hat
    · cases hat
      exact Or.inr (Nat.le_refl _)
    · exact Or.inl ⟨p, hat, rfl⟩
  | receive srcIp srcPort mem len origin =>
    show c.calls ≤ (c.onReceive app srcIp srcPort mem len origin).calls ∧ ∀ id p,
      (c.onReceive app srcIp srcPort mem len origin).At id p → _
    rcases receive_cases hok with heq | ⟨id₀, p₀, response, -, heq⟩
    · rw [heq]
      exact ⟨Nat.le_refl _, fun id p hat => Or.inl ⟨p, hat, rfl⟩⟩
    · rw [heq]
      refine ⟨Nat.le_refl _, fun id p hat => ?_⟩
      rw [At, lookup_erased] at hat
      split at hat
      · cases hat
      · exact Or.inl ⟨p, hat, rfl⟩
  | timer now order =>
    obtain ⟨-, hcalls, hlookup⟩ := h.timer hok
    refine ⟨Nat.le_of_eq hcalls.symm, fun id p hat => ?_⟩
    have hat : (c.onTimer app now order).pending.lookup id = some p := hat
    rw [hlookup] at hat
    obtain ⟨p₀, hat₀, hvisited⟩ := Option.bind_eq_some_iff.mp hat
    refine Or.inl ⟨p₀, hat₀, ?_⟩
    unfold visited at hvisited
    split at hvisited
    · split at hvisited
      · cases hvisited
      · cases hvisited
        rfl
    · cases hvisited
      rfl

/-- A query that leaves the map, or has left it, stays out of it. -/
theorem left_gone (h : c.Inv) {x : Input} (hok : c.Orderly app x) (hq : q < c.calls)
    (hgone : ∀ id p p', c.At id p → p.callback = q → ¬ (c.step app x).At id p') :
    Left q (c.step app x) 0 := by
  obtain ⟨hcalls, hat⟩ := step_at h x hok
  refine Or.inr (Or.inr ⟨by omega, fun hpending => ?_, rfl⟩)
  obtain ⟨id, p, hp, heq⟩ := (h.step x hok).pending_iff.mp hpending
  rcases hat id p hp with ⟨p₀, hp₀, hsame⟩ | hnew
  · exact hgone id p₀ p hp₀ (hsame.trans heq) hp
  · omega

/-- One step: a tick that finds the query overdue uses up one of those that are left. -/
theorem left_step (h : c.Inv) {x : Input} (hok : c.Orderly app x) {n : Nat} (hn : Left q c n) :
    ∃ m, Left q (c.step app x) m ∧ m + (if c.FindsOverdue q x then 1 else 0) ≤ n := by
  rcases hn with ⟨hq, rfl⟩ | ⟨id, p, hat, rfl, hn⟩ | ⟨hq, hgone, rfl⟩
  · -- not asked yet
    have hnot : ¬ c.Pending q := by
      intro hpending
      obtain ⟨id, p, hat, rfl⟩ := h.pending_iff.mp hpending
      exact absurd (h.passed id p hat) (Nat.not_lt.mpr hq)
    rw [if_neg (not_findsOverdue hnot x)]
    refine ⟨4, ?_, Nat.le_refl _⟩
    cases x with
    | resolve call =>
      rcases Nat.eq_or_lt_of_le hq with rfl | hlt
      · exact Or.inr (Or.inl ⟨c.nextId, _, (lookup_store ..).trans (if_pos rfl), rfl, rfl⟩)
      · exact Or.inl ⟨hlt, rfl⟩
    | receive srcIp srcPort mem len origin =>
      refine Or.inl ⟨?_, rfl⟩
      show (c.onReceive app srcIp srcPort mem len origin).calls ≤ q
      rcases receive_cases hok with heq | ⟨id, p, response, -, heq⟩
      · rw [heq]
        exact hq
      · rw [heq]
        exact hq
    | timer now order => exact Or.inl ⟨Nat.le_trans (Nat.le_of_eq (h.timer hok).2.1) hq, rfl⟩
  · -- in the map, under `id`
    have hq := h.passed id p hat
    have hretries := (h.waiting id p hat).2.1
    have hunique : ∀ id' p', c.At id' p' → p'.callback = p.callback → id' = id := fun id' p' hp' heq =>
      h.distinct _ _ _ _ hp' hat heq
    cases x with
    | resolve call =>
      have hnever : ¬ c.FindsOverdue p.callback (.resolve call) := fun hfalse => hfalse
      rw [if_neg hnever]
      refine ⟨n, Or.inr (Or.inl ⟨id, p, ?_, rfl, hn⟩), Nat.le_refl _⟩
      refine (lookup_store ..).trans ((if_neg ?_).trans hat)
      rintro rfl
      rw [At, show c.pending.lookup c.nextId = none from hok] at hat
      cases hat
    | receive srcIp srcPort mem len origin =>
      have hnever : ¬ c.FindsOverdue p.callback (.receive srcIp srcPort mem len origin) :=
        fun hfalse => hfalse
      rw [if_neg hnever]
      have hcases := receive_cases hok
      rcases hcases with heq | ⟨id₀, p₀, response, hat₀, heq⟩
      · exact ⟨n, Or.inr (Or.inl ⟨id, p, (congrArg (·.At id p) heq).mpr hat, rfl, hn⟩), Nat.le_refl _⟩
      · by_cases hid : id = id₀
        · refine ⟨0, left_gone h hok hq fun id' p' p'' hp' hcallback => ?_, Nat.zero_le _⟩
          obtain rfl := hunique id' p' hp' hcallback
          show ¬ (c.onReceive app srcIp srcPort mem len origin).At id' p''
          rw [heq, At, lookup_erased, if_pos hid]
          exact nofun
        · refine ⟨n, Or.inr (Or.inl ⟨id, p, ?_, rfl, hn⟩), Nat.le_refl _⟩
          show (c.onReceive app srcIp srcPort mem len origin).At id p
          rw [heq, At, lookup_erased, if_neg hid]
          exact hat
    | timer now order =>
      obtain ⟨-, -, hlookup⟩ := h.timer hok
      have hnext : (c.onTimer app now order).pending.lookup id = visited now p := by
        rw [hlookup, hat]
        rfl
      rw [visited] at hnext
      by_cases hoverdue : Overdue now p
      · rw [if_pos ((findsOverdue_iff h hat).mpr hoverdue)]
        rw [if_pos hoverdue] at hnext
        split at hnext
        · refine ⟨0, left_gone h hok hq fun id' p' p'' hp' hcallback => ?_, by omega⟩
          obtain rfl := hunique id' p' hp' hcallback
          show ¬ (c.onTimer app now order).At id' p''
          rw [At, hnext]
          exact nofun
        · exact ⟨n - 1, Or.inr (Or.inl ⟨id, _, hnext, rfl, by dsimp only; omega⟩), by omega⟩
      · rw [if_neg (mt (findsOverdue_iff h hat).mp hoverdue)]
        rw [if_neg hoverdue] at hnext
        exact ⟨n, Or.inr (Or.inl ⟨id, p, hnext, rfl, hn⟩), Nat.le_refl _⟩
  · refine ⟨0, left_gone h hok hq fun id p p' hat heq => ?_, ?_⟩
    · exact absurd (h.pending_iff.mpr ⟨id, p, hat, heq⟩) hgone
    · have hnone := not_findsOverdue hgone x
      exact Nat.le_of_eq (by rw [if_neg hnone])

/-- **Four ticks that find a query overdue answer it.** -/
theorem left_run (h : c.Inv) {xs : List Input} (hxs : GuardedRun.Meets (step app) (Orderly app) c xs)
    {n : Nat} (hn : Left q c n) :
    ∃ m, Left q (GuardedRun.run (step app) c xs) m ∧ m + overdueTicks app q c xs ≤ n := by
  induction xs generalizing c n with
  | nil => exact ⟨n, hn, Nat.le_refl _⟩
  | cons x xs ih =>
    obtain ⟨k, hk, hle⟩ := left_step h hxs.1 hn
    obtain ⟨m, hm, hrest⟩ := ih (h.step x hxs.1) hxs.2 hk
    refine ⟨m, hm, ?_⟩
    rw [overdueTicks]
    omega

/-! ## The result -/

/-- **Every query is answered exactly once**, in every run whose steps are orderly: in
each state it waits in the map or has been answered, once, by a response to it or after
four attempts; and it has been answered when four ticks have found it overdue. -/
theorem answeredOnce_run (app : DNSApplication) (dnsServer : UInt32) (xs : List Input)
    (h : GuardedRun.Meets (step app) (Orderly app) (init dnsServer) xs) :
    (GuardedRun.run (step app) (init dnsServer) xs).AnsweredOnce ∧
      ∀ q, 4 ≤ overdueTicks app q (init dnsServer) xs →
        (GuardedRun.run (step app) (init dnsServer) xs).answers q = 1 := by
  have hinv : (GuardedRun.run (step app) (init dnsServer) xs).Inv :=
    h.invariant (P := Inv) (fun _ x hc hx => hc.step x hx) (init_inv dnsServer)
  refine ⟨hinv.answeredOnce, fun q hticks => ?_⟩
  obtain ⟨m, hm, hle⟩ := left_run (init_inv dnsServer) h (q := q) (Or.inl ⟨Nat.zero_le _, rfl⟩)
  rcases hm with ⟨-, rfl⟩ | ⟨id, p, hat, -, hn⟩ | ⟨hq, hgone, -⟩
  · omega
  · have hretries := (hinv.waiting id p hat).2.1
    omega
  · exact (hinv.answeredOnce.once q hq).elim (fun hp => absurd hp.1 hgone) (·.2)

/-- The header of a response to the query with an id below 256. -/
def reply (id : UInt8) : Memory := .ofList [0, id, 0x80, 0, 0, 0, 0, 0, 0, 0, 0, 0]

theorem sweepQuiet_silent (now : Nat) (ids : List UInt16) (c : DNSClient) :
    SweepQuiet (fun _ _ _ => []) now ids c := by
  induction ids generalizing c with
  | nil => trivial
  | cons id ids ih => exact ⟨fun _ _ _ _ => rfl, ih _⟩

/-- Of two queries the second is answered, and the first fails at the fourth tick. -/
def twoQueries : List Input :=
  [.resolve { hostname := [97], now := 0 }, .resolve { hostname := [98], now := 1 },
    .receive 0x08080808 53 (reply 2) 12 1, .timer 3000000000 [], .timer 6000000000 [],
    .timer 9000000000 [], .timer 12000000000 []]

theorem answeredOnce_run_two :
    (GuardedRun.run (step fun _ _ _ => []) (init 0x08080808) twoQueries).AnsweredOnce ∧
      (GuardedRun.run (step fun _ _ _ => []) (init 0x08080808) twoQueries).answers 0 = 1 := by
  have hrun := answeredOnce_run (fun _ _ _ => []) 0x08080808 twoQueries
    ⟨rfl, rfl, fun response p _ _ hparse hat => ⟨?_, rfl⟩, sweepQuiet_silent _ _ _,
      sweepQuiet_silent _ _ _, sweepQuiet_silent _ _ _, sweepQuiet_silent _ _ _, trivial⟩
  · exact ⟨hrun.1, hrun.2 0 (by decide +kernel)⟩
  · have hid : ((DNSMessages.parseResponse (reply 2) 12).value.map (·.id)) = some 2 := by
      decide +kernel
    rw [hparse] at hid
    rw [show response.id = 2 from Option.some.inj hid] at hat
    cases hat
    rfl

/-- The callback of the first query asks for a second. -/
theorem nestedQuery_touched :
    ¬ (GuardedRun.run (step fun _ q _ => if q = 0 then [{ hostname := [98], now := 1 }] else [])
      (init 0x08080808) [.resolve { hostname := [97], now := 0 },
        .receive 0x08080808 53 (reply 1) 12 0]).AnsweredOnce := by
  intro h
  exact h.untouched (by decide +kernel)

end DNSClient
end NeuStack
