import NeuStack.Table
import NeuStack.Shape
import NeuStack.ConnectionManager

/-! # Well-formed managers

What holds of the heap and the two tables whatever the application and the
network do (`WellFormed`): each table has one entry a key, each entry owns the
TCB it points to and files it where it belongs, every TCB that is alive has one
owner, and new addresses are fresh.

The operations on heap and tables keep it, each under its own condition; the
moves of the manager are built from these.
-/
namespace NeuStack
variable {σ : Type}

namespace TCPConnectionManager

/-- **The heap and the tables fit together.** -/
structure WellFormed (m : TCPConnectionManager σ) : Prop where
  keys_nodup : (m.connections.map (·.1)).Nodup
  ports_nodup : (m.listeners.map (·.1)).Nodup
  /-- An entry is filed under the tuple of its own TCB. -/
  connection : ∀ k p, (k, p) ∈ m.connections →
    ∃ t, m.heap p = some t ∧ t.tTuple = k ∧ t.state ≠ .listen
  /-- A listener is `LISTEN`, or is being reset. -/
  listener : ∀ port p, (port, p) ∈ m.listeners →
    ∃ t, m.heap p = some t ∧ t.tTuple.localPort = port ∧ (t.state = .listen ∨ t.state = .closed)
  owned : ∀ p t, m.heap p = some t →
    (t.tTuple, p) ∈ m.connections ∨ (t.tTuple.localPort, p) ∈ m.listeners
  disjoint : ∀ k port p, (k, p) ∈ m.connections → (port, p) ∉ m.listeners
  fresh : ∀ p t, m.heap p = some t → p < m.nextAddr
  shape : ∀ p t, m.heap p = some t → t.Shape
  /-- Between two moves, a connection that is still opening has its SYN unacknowledged. -/
  unacked : ∀ p t, m.heap p = some t → t.state = .synSent ∨ t.state = .synRcvd →
    t.sndUna = t.iss
  limit : m.connections.length ≤ maxConnections
  localIp : ∀ k p, (k, p) ∈ m.connections → k.localIp = m.localIp

variable {m m' : TCPConnectionManager σ} {p q : Ptr} {t : TCB σ} {k : TCPTuple}

/-! ## Reading -/

theorem on_of_heap (hp : m.heap p = some t) (f : Conn σ → Conn σ) :
    m.on p f = m.store (f ⟨p, t, m.trace⟩) := by
  rw [on, hp]

theorem on_of_freed (hp : m.heap p = none) (f : Conn σ → Conn σ) : m.on p f = m := by
  rw [on, hp]

theorem modify_of_heap (hp : m.heap p = some t) (f : TCB σ → TCB σ) :
    m.modify p f = m.store ⟨p, f t, m.trace⟩ := on_of_heap hp _

theorem test_of_heap (hp : m.heap p = some t) (f : TCB σ → Bool) : m.test p f = f t := by
  rw [test, hp]
  rfl

@[simp] theorem store_heap_self (m : TCPConnectionManager σ) (c : Conn σ) :
    (m.store c).heap c.ptr = some c.tcb := Function.update_self ..

theorem store_heap_ne (m : TCPConnectionManager σ) {c : Conn σ} (h : q ≠ c.ptr) :
    (m.store c).heap q = m.heap q := Function.update_of_ne h ..

@[simp] theorem store_trace (m : TCPConnectionManager σ) (c : Conn σ) :
    (m.store c).trace = c.trace := rfl

@[simp] theorem store_store (m : TCPConnectionManager σ) (c c' : Conn σ) (h : c.ptr = c'.ptr) :
    (m.store c).store c' = m.store c' := by
  simp only [store, h, Function.update_idem]

theorem free_heap (m : TCPConnectionManager σ) (p q : Ptr) (u : TCB σ) :
    (m.free p).heap q = some u ↔ q ≠ p ∧ m.heap q = some u := by
  unfold free
  rcases eq_or_ne q p with rfl | hne
  · simp
  · simp [hne]

namespace WellFormed

theorem findTcb_iff (h : m.WellFormed) : m.findTcb k = some p ↔ (k, p) ∈ m.connections :=
  Table.lookup_iff h.keys_nodup

theorem findListeningTcb_iff (h : m.WellFormed) {port : UInt16} :
    m.findListeningTcb port = some p ↔ (port, p) ∈ m.listeners :=
  Table.lookup_iff h.ports_nodup

theorem find (h : m.WellFormed) (hk : m.findTcb k = some p) :
    ∃ t, m.heap p = some t ∧ t.tTuple = k ∧ t.state ≠ .listen :=
  h.connection k p (h.findTcb_iff.mp hk)

theorem findListening (h : m.WellFormed) {port : UInt16} (hk : m.findListeningTcb port = some p) :
    ∃ t, m.heap p = some t ∧ t.tTuple.localPort = port ∧ (t.state = .listen ∨ t.state = .closed) :=
  h.listener port p (h.findListeningTcb_iff.mp hk)

theorem listeningPort (h : m.WellFormed) {port : UInt16} (hk : m.findListeningTcb port = some p)
    (hp : m.heap p = some t) : t.tTuple.localPort = port := by
  obtain ⟨u, hu, hport, -⟩ := h.findListening hk
  rw [hp] at hu
  cases hu
  exact hport

/-- A TCB that is neither listening nor closed is a connection's. -/
theorem mem_connections (h : m.WellFormed) (hp : m.heap p = some t) (hl : t.state ≠ .listen)
    (hc : t.state ≠ .closed) : (t.tTuple, p) ∈ m.connections := by
  rcases h.owned p t hp with hconn | hlist
  · exact hconn
  · obtain ⟨t', hp', -, hstate⟩ := h.listener _ _ hlist
    rw [hp] at hp'
    cases hp'
    rcases hstate with hstate | hstate
    · exact absurd hstate hl
    · exact absurd hstate hc

theorem mem_listeners (h : m.WellFormed) (hp : m.heap p = some t) (hl : t.state = .listen) :
    (t.tTuple.localPort, p) ∈ m.listeners := by
  rcases h.owned p t hp with hconn | hlist
  · obtain ⟨t', hp', -, hstate⟩ := h.connection _ _ hconn
    rw [hp] at hp'
    cases hp'
    exact absurd hl hstate
  · exact hlist

/-- The address of a live TCB is not the next one. -/
theorem ne_nextAddr (h : m.WellFormed) (hp : m.heap p = some t) : p ≠ m.nextAddr :=
  Nat.ne_of_lt (h.fresh p t hp)

/-! ## Changing -/

/-- Nothing but the heap and the tables matters. -/
theorem congr (h : m.WellFormed) (hheap : m'.heap = m.heap)
    (hconn : m'.connections = m.connections) (hlist : m'.listeners = m.listeners)
    (hnext : m'.nextAddr = m.nextAddr) (hip : m'.localIp = m.localIp) : m'.WellFormed := by
  obtain ⟨h1, h2, h3, h4, h5, h6, h7, h8, h9, h10, h11⟩ := h
  constructor <;> simp only [hheap, hconn, hlist, hnext, hip] <;> assumption

/-- Replacing a live TCB by one of the same tuple; a connection must not start to
listen, and a listener can only be closed. -/
theorem store (h : m.WellFormed) (hp : m.heap p = some t) {c : Conn σ} (hptr : c.ptr = p)
    (htuple : c.tcb.tTuple = t.tTuple) (hlisten : c.tcb.state = .listen → t.state = .listen)
    (hkind : t.state = .listen ∨ t.state = .closed → c.tcb.state = t.state ∨ c.tcb.state = .closed)
    (hshape : c.tcb.Shape)
    (hunacked : c.tcb.state = .synSent ∨ c.tcb.state = .synRcvd → c.tcb.sndUna = c.tcb.iss) :
    (m.store c).WellFormed := by
  subst hptr
  refine ⟨h.keys_nodup, h.ports_nodup, fun k q hq => ?_, fun port q hq => ?_, fun q u hu => ?_,
    h.disjoint, fun q u hu => ?_, fun q u hu => ?_, fun q u hu hs => ?_, h.limit, h.localIp⟩
  · obtain ⟨u, hu, hk, hs⟩ := h.connection k q hq
    rcases eq_or_ne q c.ptr with rfl | hne
    · rw [hp] at hu
      cases hu
      exact ⟨c.tcb, store_heap_self m c, htuple.trans hk, fun hl => hs (hlisten hl)⟩
    · exact ⟨u, (store_heap_ne m hne).trans hu, hk, hs⟩
  · obtain ⟨u, hu, hport, hs⟩ := h.listener port q hq
    rcases eq_or_ne q c.ptr with rfl | hne
    · rw [hp] at hu
      cases hu
      refine ⟨c.tcb, store_heap_self m c, by rw [htuple, hport], ?_⟩
      rcases hkind hs with hc | hc
      · rw [hc]
        exact hs
      · exact Or.inr hc
    · exact ⟨u, (store_heap_ne m hne).trans hu, hport, hs⟩
  · rcases eq_or_ne q c.ptr with rfl | hne
    · rw [store_heap_self] at hu
      cases hu
      rw [htuple]
      exact h.owned _ t hp
    · exact h.owned q u ((store_heap_ne m hne).symm.trans hu)
  · rcases eq_or_ne q c.ptr with rfl | hne
    · exact h.fresh _ t hp
    · exact h.fresh q u ((store_heap_ne m hne).symm.trans hu)
  · rcases eq_or_ne q c.ptr with rfl | hne
    · rw [store_heap_self] at hu
      cases hu
      exact hshape
    · exact h.shape q u ((store_heap_ne m hne).symm.trans hu)
  · rcases eq_or_ne q c.ptr with rfl | hne
    · rw [store_heap_self] at hu
      cases hu
      exact hunacked hs
    · exact h.unacked q u ((store_heap_ne m hne).symm.trans hu) hs

/-- Two entries do not share a TCB. -/
theorem tuple_eq (h : m.WellFormed) {k' : TCPTuple} (hk : (k, p) ∈ m.connections)
    (hk' : (k', p) ∈ m.connections) : k = k' := by
  obtain ⟨t, hp, rfl, -⟩ := h.connection k p hk
  obtain ⟨t', hp', rfl, -⟩ := h.connection k' p hk'
  rw [hp] at hp'
  cases hp'
  rfl

theorem port_eq (h : m.WellFormed) {port port' : UInt16} (hk : (port, p) ∈ m.listeners)
    (hk' : (port', p) ∈ m.listeners) : port = port' := by
  obtain ⟨t, hp, rfl, -⟩ := h.listener port p hk
  obtain ⟨t', hp', rfl, -⟩ := h.listener port' p hk'
  rw [hp] at hp'
  cases hp'
  rfl

/-- Erasing entries and freeing what they owned. -/
theorem erase (h : m.WellFormed) {f : TCPTuple × Ptr → Bool} {g : UInt16 × Ptr → Bool}
    (hconn : m'.connections = m.connections.filter f) (hlist : m'.listeners = m.listeners.filter g)
    (hnext : m'.nextAddr = m.nextAddr) (hip : m'.localIp = m.localIp)
    (hheap : ∀ q u, m'.heap q = some u ↔ m.heap q = some u ∧
      ((u.tTuple, q) ∈ m'.connections ∨ (u.tTuple.localPort, q) ∈ m'.listeners)) :
    m'.WellFormed := by
  have hconn' : ∀ e, e ∈ m'.connections → e ∈ m.connections := fun e he =>
    (List.mem_filter.mp (hconn ▸ he)).1
  have hlist' : ∀ e, e ∈ m'.listeners → e ∈ m.listeners := fun e he =>
    (List.mem_filter.mp (hlist ▸ he)).1
  refine ⟨?_, ?_, fun k q hq => ?_, fun port q hq => ?_, fun q u hu => ((hheap q u).mp hu).2,
    fun k port q hk hl => h.disjoint k port q (hconn' _ hk) (hlist' _ hl), fun q u hu => ?_,
    fun q u hu => h.shape q u ((hheap q u).mp hu).1,
    fun q u hu => h.unacked q u ((hheap q u).mp hu).1, ?_, fun k q hq => ?_⟩
  · rw [hconn]
    exact h.keys_nodup.sublist (List.filter_sublist.map _)
  · rw [hlist]
    exact h.ports_nodup.sublist (List.filter_sublist.map _)
  · obtain ⟨u, hu, rfl, hs⟩ := h.connection k q (hconn' _ hq)
    exact ⟨u, (hheap q u).mpr ⟨hu, Or.inl hq⟩, rfl, hs⟩
  · obtain ⟨u, hu, rfl, hs⟩ := h.listener port q (hlist' _ hq)
    exact ⟨u, (hheap q u).mpr ⟨hu, Or.inr hq⟩, rfl, hs⟩
  · rw [hnext]
    exact h.fresh q u ((hheap q u).mp hu).1
  · rw [hconn]
    exact Nat.le_trans (List.length_filter_le ..) h.limit
  · rw [hip]
    exact h.localIp k q (hconn' _ hq)

theorem eraseConnection (h : m.WellFormed) (k : TCPTuple) : (m.eraseConnection k).WellFormed := by
  unfold TCPConnectionManager.eraseConnection
  split
  · exact h
  · rename_i p hk
    have hmem := h.findTcb_iff.mp hk
    refine h.erase rfl (List.filter_true _).symm rfl rfl (fun q u => ?_)
    rw [free_heap]
    constructor
    · rintro ⟨hne, hu⟩
      refine ⟨hu, (h.owned q u hu).imp_left fun hconn => Table.mem_erase.mpr ⟨hconn, ?_⟩⟩
      rintro rfl
      exact hne (Table.eq_of_mem h.keys_nodup hconn hmem)
    · rintro ⟨hu, hconn | hlist⟩
      · obtain ⟨hold, hne⟩ := Table.mem_erase.mp hconn
        refine ⟨?_, hu⟩
        rintro rfl
        exact hne (h.tuple_eq hold hmem)
      · refine ⟨?_, hu⟩
        rintro rfl
        exact h.disjoint k _ _ hmem hlist

theorem eraseListener (h : m.WellFormed) (port : UInt16) : (m.eraseListener port).WellFormed := by
  unfold TCPConnectionManager.eraseListener
  split
  · exact h
  · rename_i p hk
    have hmem := h.findListeningTcb_iff.mp hk
    refine h.erase (List.filter_true _).symm rfl rfl rfl (fun q u => ?_)
    rw [free_heap]
    constructor
    · rintro ⟨hne, hu⟩
      refine ⟨hu, (h.owned q u hu).imp_right fun hlist => Table.mem_erase.mpr ⟨hlist, ?_⟩⟩
      rintro rfl
      refine hne (Table.eq_of_mem h.ports_nodup hlist hmem)
    · rintro ⟨hu, hconn | hlist⟩
      · refine ⟨?_, hu⟩
        rintro rfl
        exact h.disjoint _ port _ hconn hmem
      · obtain ⟨hold, hne⟩ := Table.mem_erase.mp hlist
        refine ⟨?_, hu⟩
        rintro rfl
        exact hne (h.port_eq hold hmem)

/-- A new TCB at the next address, filed in one of the tables. -/
theorem alloc (h : m.WellFormed) (hshape : t.Shape) (huna : t.sndUna = t.iss)
    (hheap : m'.heap = Function.update m.heap m.nextAddr (some t))
    (hnext : m'.nextAddr = m.nextAddr + 1) (hip : m'.localIp = m.localIp)
    (htables : (t.state ≠ .listen ∧ m.findTcb t.tTuple = none ∧
        t.tTuple.localIp = m.localIp ∧ m.connections.length < maxConnections ∧
        m'.connections = (t.tTuple, m.nextAddr) :: m.connections ∧ m'.listeners = m.listeners) ∨
      (t.state = .listen ∧ m.findListeningTcb t.tTuple.localPort = none ∧
        m'.connections = m.connections ∧
        m'.listeners = (t.tTuple.localPort, m.nextAddr) :: m.listeners)) : m'.WellFormed := by
  have hself : m'.heap m.nextAddr = some t := by rw [hheap, Function.update_self]
  have hother : ∀ q, q ≠ m.nextAddr → m'.heap q = m.heap q := fun q hq => by
    rw [hheap, Function.update_of_ne hq]
  have hold : ∀ q u, m.heap q = some u → m'.heap q = some u := fun q u hu =>
    (hother q (h.ne_nextAddr hu)).trans hu
  have hback : ∀ q u, m'.heap q = some u → (q = m.nextAddr ∧ u = t) ∨ m.heap q = some u := by
    intro q u hu
    rcases eq_or_ne q m.nextAddr with rfl | hne
    · rw [hself] at hu
      exact Or.inl ⟨rfl, (Option.some.inj hu).symm⟩
    · exact Or.inr ((hother q hne).symm.trans hu)
  have hfresh : ∀ q u, m'.heap q = some u → q < m'.nextAddr := by
    intro q u hu
    rw [hnext]
    rcases hback q u hu with ⟨rfl, -⟩ | hu
    · exact Nat.lt_succ_self _
    · exact Nat.lt_succ_of_lt (h.fresh q u hu)
  have hallshape : ∀ q u, m'.heap q = some u → u.Shape := by
    intro q u hu
    rcases hback q u hu with ⟨-, rfl⟩ | hu
    · exact hshape
    · exact h.shape q u hu
  have hunacked : ∀ q u, m'.heap q = some u → u.state = .synSent ∨ u.state = .synRcvd →
      u.sndUna = u.iss := by
    intro q u hu hs
    rcases hback q u hu with ⟨-, rfl⟩ | hu
    · exact huna
    · exact h.unacked q u hu hs
  have hnew : ∀ k, (k, m.nextAddr) ∉ m.connections := by
    intro k hk
    obtain ⟨u, hu, -⟩ := h.connection k _ hk
    exact h.ne_nextAddr hu rfl
  have hnew' : ∀ port, (port, m.nextAddr) ∉ m.listeners := by
    intro port hk
    obtain ⟨u, hu, -⟩ := h.listener port _ hk
    exact h.ne_nextAddr hu rfl
  rcases htables with ⟨hs, hfree, htip, hlimit, hconn, hlist⟩ | ⟨hs, hfree, hconn, hlist⟩
  · refine ⟨?_, hlist ▸ h.ports_nodup, fun k q hq => ?_, fun port q hq => ?_, fun q u hu => ?_,
      fun k port q hq hl => ?_, hfresh, hallshape, hunacked, ?_, fun k q hq => ?_⟩
    · rw [hconn, List.map_cons, List.nodup_cons]
      exact ⟨Table.lookup_eq_none hfree, h.keys_nodup⟩
    · rcases List.mem_cons.mp (hconn ▸ hq) with heq | hq
      · cases heq
        exact ⟨t, hself, rfl, hs⟩
      · obtain ⟨u, hu, hk⟩ := h.connection k q hq
        exact ⟨u, hold q u hu, hk⟩
    · obtain ⟨u, hu, hk⟩ := h.listener port q (hlist ▸ hq)
      exact ⟨u, hold q u hu, hk⟩
    · rw [hconn, hlist]
      rcases hback q u hu with ⟨rfl, rfl⟩ | hu
      · exact Or.inl (List.mem_cons_self ..)
      · exact (h.owned q u hu).imp_left (List.mem_cons_of_mem _)
    · rcases List.mem_cons.mp (hconn ▸ hq) with heq | hq
      · cases heq
        exact hnew' port (hlist ▸ hl)
      · exact h.disjoint k port q hq (hlist ▸ hl)
    · rw [hconn]
      exact hlimit
    · rw [hip]
      rcases List.mem_cons.mp (hconn ▸ hq) with heq | hq
      · cases heq
        exact htip
      · exact h.localIp k q hq
  · refine ⟨hconn ▸ h.keys_nodup, ?_, fun k q hq => ?_, fun port q hq => ?_, fun q u hu => ?_,
      fun k port q hq hl => ?_, hfresh, hallshape, hunacked, hconn ▸ h.limit,
      fun k q hq => ?_⟩
    · rw [hlist, List.map_cons, List.nodup_cons]
      exact ⟨Table.lookup_eq_none hfree, h.ports_nodup⟩
    · obtain ⟨u, hu, hk⟩ := h.connection k q (hconn ▸ hq)
      exact ⟨u, hold q u hu, hk⟩
    · rcases List.mem_cons.mp (hlist ▸ hq) with heq | hq
      · cases heq
        exact ⟨t, hself, rfl, Or.inl hs⟩
      · obtain ⟨u, hu, hk⟩ := h.listener port q hq
        exact ⟨u, hold q u hu, hk⟩
    · rw [hconn, hlist]
      rcases hback q u hu with ⟨rfl, rfl⟩ | hu
      · exact Or.inr (List.mem_cons_self ..)
      · exact (h.owned q u hu).imp_right (List.mem_cons_of_mem _)
    · rcases List.mem_cons.mp (hlist ▸ hl) with heq | hl
      · cases heq
        exact hnew k (hconn ▸ hq)
      · exact h.disjoint k port q (hconn ▸ hq) hl
    · rw [hip]
      exact h.localIp k q (hconn ▸ hq)

/-- The empty manager. -/
theorem init (localIp : UInt32) : (init localIp : TCPConnectionManager σ).WellFormed := by
  refine ⟨List.nodup_nil, List.nodup_nil, ?_, ?_, ?_, ?_, ?_, ?_, ?_,
    Nat.zero_le _, ?_⟩
  all_goals
    intros
    contradiction

end WellFormed

end TCPConnectionManager

end NeuStack
