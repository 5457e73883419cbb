import NeuStack.ConnectionManager
import NeuStack.GuardedRun
import NeuStack.Table

/-! # Ephemeral ports

`allocate_ephemeral_port` of `TCPLayer` and of `UDPLayer`: both count upwards from a cursor
that starts at 49152 and take the first port that is not in use.  The cursor is to go back
to 49152 once it is past 65535, but a `uint16_t` is never past 65535: it goes on to 0, and
through the ports below the range (`cursorAfter_eq`).

So both loops are `firstFree`, over 16384 ports and over all 65536, and an allocation is
what it should be (`Allocates`) exactly when a free port of the range comes before those
below it (`Reaches`).
-/
namespace NeuStack

/-! ## Counting upwards -/

/-- `EPHEMERAL_START` and `EPHEMERAL_PORT_MIN`. -/
def ephemeralStart : UInt16 := 49152

/-- `EPHEMERAL_END` and `EPHEMERAL_PORT_MAX`. -/
def ephemeralEnd : UInt16 := 65535

/-- The cursor behind a port. -/
def cursorAfter (port : UInt16) : UInt16 :=
  let next := port + 1
  if ephemeralEnd < next then ephemeralStart else next

/-- The cursor is never past the end. -/
theorem cursorAfter_eq (port : UInt16) : cursorAfter port = port + 1 := by
  have hle : (port + 1).toNat < 65536 := (port + 1).toNat_lt
  refine if_neg fun hlt => ?_
  have hlt : 65535 < (port + 1).toNat := UInt16.lt_iff_toNat_lt.mp hlt
  omega

/-- The first of `n` ports from `next` upwards that is not in use. -/
def firstFree (inUse : UInt16 → Bool) : Nat → UInt16 → Option UInt16
  | 0, _ => none
  | n + 1, next => if inUse next then firstFree inUse n (next + 1) else some next

/-- What an allocation is for: a free port of the range, as long as there is one. -/
def Allocates (inUse : UInt16 → Bool) (port : UInt16) : Prop :=
  ((∃ p, ephemeralStart ≤ p ∧ inUse p = false) → ephemeralStart ≤ port ∧ inUse port = false) ∧
    (port = 0 → ∀ p, ephemeralStart ≤ p → inUse p = true)

/-- No port of the range is free, or one of the next `n` is, and the free ports below the
range come behind it. -/
def Reaches (inUse : UInt16 → Bool) (n : Nat) (next : UInt16) : Prop :=
  (∀ p, ephemeralStart ≤ p → inUse p = true) ∨
    ∃ p, ephemeralStart ≤ p ∧ inUse p = false ∧ (p - next).toNat < n ∧
      ∀ q, q < ephemeralStart → q - next < p - next → inUse q = true

section
variable {inUse : UInt16 → Bool} {n : Nat} {next port : UInt16}

/-- The distance from the cursor, before and after it moves on. -/
theorem distance_succ {q : UInt16} (hq : q ≠ next) :
    (q - next).toNat = (q - (next + 1)).toNat + 1 := by
  have hne : q.toNat ≠ next.toNat := fun heq => hq (UInt16.toNat_inj.mp heq)
  have hqlt := q.toNat_lt
  have hnlt := next.toNat_lt
  have hone : (1 : UInt16).toNat = 1 := rfl
  rw [UInt16.toNat_sub, UInt16.toNat_sub, UInt16.toNat_add, hone]
  omega

/-- The ports between the cursor and the first free one are in use. -/
theorem firstFree_some (h : firstFree inUse n next = some port) :
    inUse port = false ∧ (port - next).toNat < n ∧
      ∀ q, q - next < port - next → inUse q = true := by
  induction n generalizing next with
  | zero => cases h
  | succ n ih =>
    rw [firstFree] at h
    split at h
    · rename_i hnext
      obtain ⟨hfree, hdist, hbefore⟩ := ih h
      have hne : port ≠ next := by
        rintro rfl
        rw [hnext] at hfree
        cases hfree
      refine ⟨hfree, by rw [distance_succ hne]; exact Nat.succ_lt_succ hdist, fun q hq => ?_⟩
      by_cases hqn : q = next
      · rw [hqn]
        exact hnext
      · refine hbefore q (UInt16.lt_iff_toNat_lt.mpr ?_)
        have hq := UInt16.lt_iff_toNat_lt.mp hq
        rw [distance_succ hqn, distance_succ hne] at hq
        exact Nat.lt_of_succ_lt_succ hq
    · rename_i hnext
      cases h
      refine ⟨Bool.eq_false_iff.mpr hnext, ?_, fun q hq => ?_⟩
      · rw [UInt16.sub_self]
        exact Nat.succ_pos n
      · rw [UInt16.sub_self] at hq
        exact absurd hq (UInt16.not_lt_zero)

theorem firstFree_none (h : firstFree inUse n next = none) {q : UInt16}
    (hq : (q - next).toNat < n) : inUse q = true := by
  induction n generalizing next with
  | zero => exact absurd hq (Nat.not_lt_zero _)
  | succ n ih =>
    rw [firstFree] at h
    split at h
    · rename_i hnext
      by_cases hqn : q = next
      · rw [hqn]
        exact hnext
      · rw [distance_succ hqn] at hq
        exact ih h (Nat.lt_of_succ_lt_succ hq)
    · cases h

/-- **When the first free port is the one to allocate.** -/
theorem allocates_iff :
    Allocates inUse ((firstFree inUse n next).getD 0) ↔ Reaches inUse n next := by
  constructor
  · rintro ⟨hright, -⟩
    by_cases hfree : ∃ p, ephemeralStart ≤ p ∧ inUse p = false
    · obtain ⟨hstart, hport⟩ := hright hfree
      cases hfirst : firstFree inUse n next with
      | none =>
        rw [hfirst] at hstart
        exact absurd hstart (by decide)
      | some port =>
        rw [hfirst] at hstart hport
        obtain ⟨-, hdist, hbefore⟩ := firstFree_some hfirst
        exact Or.inr ⟨port, hstart, hport, hdist, fun q _ hq => hbefore q hq⟩
    · refine Or.inl fun p hp => ?_
      rw [← Bool.not_eq_false]
      exact fun hfalse => hfree ⟨p, hp, hfalse⟩
  · rintro (hall | ⟨p, hp, hfree, hdist, hbelow⟩)
    · refine ⟨?_, fun _ => hall⟩
      rintro ⟨p, hp, hfree⟩
      rw [hall p hp] at hfree
      cases hfree
    · have hfound : ephemeralStart ≤ (firstFree inUse n next).getD 0 ∧
          inUse ((firstFree inUse n next).getD 0) = false := by
        cases hfirst : firstFree inUse n next with
        | none =>
          rw [firstFree_none hfirst hdist] at hfree
          cases hfree
        | some port =>
          obtain ⟨hport, -, hbefore⟩ := firstFree_some hfirst
          refine ⟨UInt16.not_lt.mp fun hlow => ?_, hport⟩
          -- a port below the range is behind `p`, and so `p` would have come first
          have hle : p - next ≤ port - next := UInt16.not_lt.mp fun hlt => by
            rw [hbelow port hlow hlt] at hport
            cases hport
          have hne : p - next ≠ port - next := fun heq => by
            have heq : p = port := by
              rw [← UInt16.sub_add_cancel p next, heq, UInt16.sub_add_cancel]
            rw [heq] at hp
            exact UInt16.not_lt.mpr hp hlow
          rw [hbefore p (UInt16.lt_of_le_of_ne hle hne)] at hfree
          cases hfree
      refine ⟨fun _ => hfound, fun hzero => ?_⟩
      rw [hzero] at hfound
      exact absurd hfound.1 (by decide)

end

/-! ## TCP -/

variable {σ : Type}

/-- `is_port_in_use` -/
def TCPConnectionManager.isPortInUse (m : TCPConnectionManager σ) (port : UInt16) : Bool :=
  (m.listeners.lookup port).isSome || m.connections.any fun e => e.1.localPort = port

namespace TCPLayer

/-- `MAX_ATTEMPTS` -/
def maxAttempts : Nat := 16384

/-- The loop of `allocate_ephemeral_port`: the port and the cursor. -/
def tryPorts (m : TCPConnectionManager σ) : Nat → UInt16 → UInt16 × UInt16
  | 0, next => (0, next)
  | i + 1, next =>
    let port := next
    let next := cursorAfter next
    if !m.isPortInUse port then (port, next) else tryPorts m i next

/-- `TCPLayer::allocate_ephemeral_port`, the cursor at `next`. -/
def allocateEphemeralPort (next : UInt16) (m : TCPConnectionManager σ) : UInt16 × UInt16 :=
  tryPorts m maxAttempts next

theorem tryPorts_eq (m : TCPConnectionManager σ) (n : Nat) (next : UInt16) :
    (tryPorts m n next).1 = (firstFree m.isPortInUse n next).getD 0 := by
  induction n generalizing next with
  | zero => rfl
  | succ n ih =>
    rw [tryPorts, firstFree, cursorAfter_eq]
    cases m.isPortInUse next with
    | true => exact ih (next + 1)
    | false => rfl

end TCPLayer

/-! ## UDP -/

/-- The ports of `class UDPLayer`. -/
structure UDPLayer where
  sockets : List (UInt16 × Callback) := []
  nextEphemeralPort : UInt16 := 49152

namespace UDPLayer

/-- Whether `_sockets` has the port. -/
def isBound (u : UDPLayer) (port : UInt16) : Bool := (u.sockets.lookup port).isSome

/-- The loop of `allocate_ephemeral_port`, which ends at the latest when the cursor is back
at `start`: the port and the cursor. -/
def search (u : UDPLayer) (start next : UInt16) : UInt16 × UInt16 :=
  if !u.isBound next then (next, cursorAfter next)
  else if cursorAfter next ≠ start then u.search start (cursorAfter next)
  else (0, cursorAfter next)
termination_by (start - cursorAfter next).toNat
decreasing_by
  rename_i hne
  rw [cursorAfter_eq] at hne ⊢
  rw [cursorAfter_eq, distance_succ (Ne.symm hne)]
  exact Nat.lt_succ_self _

/-- `UDPLayer::allocate_ephemeral_port` -/
def allocateEphemeralPort (u : UDPLayer) : UDPLayer × UInt16 :=
  let (port, next) := u.search u.nextEphemeralPort u.nextEphemeralPort
  ({ u with nextEphemeralPort := next }, port)

/-- `bind`, which returns 0 when it fails. -/
def bind (u : UDPLayer) (port : UInt16) (callback : Option Callback) : UDPLayer × UInt16 :=
  match callback with
  | none => (u, 0)
  | some callback =>
    let (u, port) := if port = 0 then u.allocateEphemeralPort else (u, port)
    if port = 0 then (u, 0)
    else if u.isBound port then (u, 0)
    else ({ u with sockets := (port, callback) :: u.sockets }, port)

/-- `unbind` -/
def unbind (u : UDPLayer) (port : UInt16) : UDPLayer :=
  { u with sockets := u.sockets.filter (·.1 ≠ port) }

/-- A call. -/
inductive Op where
  | bind (port : UInt16) (callback : Option Callback)
  | unbind (port : UInt16)

def step (u : UDPLayer) : Op → UDPLayer
  | .bind port callback => (u.bind port callback).1
  | .unbind port => u.unbind port

/-- The loop looks at every port once. -/
theorem search_eq (u : UDPLayer) (start next : UInt16) :
    (u.search start next).1 =
      (firstFree u.isBound ((start - (next + 1)).toNat + 1) next).getD 0 := by
  induction next using search.induct u start with
  | case1 next hfree =>
    rw [search, if_pos hfree, firstFree, if_neg (by simpa using hfree)]
    rfl
  | case2 next hbound hne ih =>
    rw [search, if_neg hbound, if_pos hne, ih]
    rw [cursorAfter_eq] at hne ⊢
    rw [distance_succ (Ne.symm hne)]
    have hskip : firstFree u.isBound ((start - (next + 1 + 1)).toNat + 1 + 1) next =
        firstFree u.isBound ((start - (next + 1 + 1)).toNat + 1) (next + 1) :=
      if_pos (by simpa using hbound)
    rw [hskip]
  | case3 next hbound hback =>
    rw [search, if_neg hbound, if_neg hback, firstFree, if_pos (by simpa using hbound)]
    rw [cursorAfter_eq, not_not] at hback
    rw [hback, UInt16.sub_self]
    rfl

theorem allocateEphemeralPort_eq (u : UDPLayer) :
    u.allocateEphemeralPort.2 = (firstFree u.isBound 65536 u.nextEphemeralPort).getD 0 := by
  have hall : (u.nextEphemeralPort - (u.nextEphemeralPort + 1)).toNat + 1 = 65536 := by
    have hlt := u.nextEphemeralPort.toNat_lt
    have hone : (1 : UInt16).toNat = 1 := rfl
    rw [UInt16.toNat_sub, UInt16.toNat_add, hone]
    omega
  rw [← hall]
  exact search_eq ..

/-! ## A port that is bound and given back -/

/-- `k` sockets, one after another. -/
def churn : Nat → List Op
  | 0 => []
  | k + 1 => churn k ++ [.bind 0 (some 0), .unbind (ephemeralStart + UInt16.ofNat k)]

/-- The ports of the range are used one by one. -/
theorem run_churn {k : Nat} (hk : k ≤ 16384) :
    GuardedRun.run step {} (churn k) =
      { sockets := [], nextEphemeralPort := ephemeralStart + UInt16.ofNat k } := by
  induction k with
  | zero => rfl
  | succ k ih =>
    rw [churn, GuardedRun.run_append, ih (by omega)]
    generalize hport : ephemeralStart + UInt16.ofNat k = port
    have hne : port ≠ 0 := by
      intro hzero
      have hnat : (ephemeralStart + UInt16.ofNat k).toNat = (0 : UInt16).toNat := by
        rw [hport, hzero]
      have hstart : ephemeralStart.toNat = 49152 := rfl
      have hzero : (0 : UInt16).toNat = 0 := rfl
      have hsize : k < UInt16.size := Nat.lt_of_lt_of_le hk (by decide)
      rw [UInt16.toNat_add, UInt16.toNat_ofNat_of_lt' hsize, hstart, hzero] at hnat
      omega
    have hnext : ephemeralStart + UInt16.ofNat (k + 1) = port + 1 := by
      rw [← hport, UInt16.ofNat_add, UInt16.add_assoc]
      rfl
    have hfree : ({ sockets := [], nextEphemeralPort := port } : UDPLayer).allocateEphemeralPort =
        ({ sockets := [], nextEphemeralPort := port + 1 }, port) := by
      rw [allocateEphemeralPort, search, ← cursorAfter_eq]
      rfl
    have hbind : ({ sockets := [], nextEphemeralPort := port } : UDPLayer).bind 0 (some 0) =
        ({ sockets := [(port, 0)], nextEphemeralPort := port + 1 }, port) := by
      rw [bind]
      dsimp only
      rw [if_pos rfl, hfree, if_neg hne]
      rfl
    rw [GuardedRun.run_cons, GuardedRun.run_cons, GuardedRun.run_nil, step, hbind, hnext, step,
      unbind]
    dsimp only
    rw [List.filter_cons, if_neg (by simp), List.filter_nil]

end UDPLayer

/-! ## Both layers -/

/-- An allocation of the UDP layer: `bind` with port 0. -/
def UDPLayer.Op.Picks : UDPLayer.Op → Prop
  | .bind port callback => port = 0 ∧ callback ≠ none
  | .unbind _ => False

/-- **An allocation is right exactly when it reaches a free port of the range** before those
below it, in every run of the two layers: for TCP whatever the manager is at each allocation,
for UDP over the calls of `bind` and `unbind`. -/
theorem ephemeral_iff :
    (∀ ms : List (TCPConnectionManager σ),
      GuardedRun.Meets (fun next m => (TCPLayer.allocateEphemeralPort next m).2)
        (fun next m => Allocates m.isPortInUse (TCPLayer.allocateEphemeralPort next m).1)
        ephemeralStart ms ↔
      GuardedRun.Meets (fun next m => (TCPLayer.allocateEphemeralPort next m).2)
        (fun next m => Reaches m.isPortInUse TCPLayer.maxAttempts next) ephemeralStart ms) ∧
    ∀ xs : List UDPLayer.Op,
      GuardedRun.Meets UDPLayer.step
        (fun u x => x.Picks → Allocates u.isBound u.allocateEphemeralPort.2) {} xs ↔
      GuardedRun.Meets UDPLayer.step
        (fun u x => x.Picks → Reaches u.isBound 65536 u.nextEphemeralPort) {} xs := by
  constructor
  · refine fun ms => GuardedRun.meets_congr (Q := fun _ => True) (fun _ _ _ => trivial)
      (fun next m _ => ?_) trivial ms
    rw [TCPLayer.allocateEphemeralPort, TCPLayer.tryPorts_eq]
    exact allocates_iff
  · refine fun xs => GuardedRun.meets_congr (Q := fun _ => True) (fun _ _ _ => trivial)
      (fun u x _ => ?_) trivial xs
    rw [UDPLayer.allocateEphemeralPort_eq]
    exact imp_congr_right fun _ => allocates_iff

/-- After the whole range the cursor is at 0. -/
theorem UDPLayer.refuses {k : Nat} (hk : k = 16384) :
    ¬ GuardedRun.Meets step (fun u x => x.Picks → Allocates u.isBound u.allocateEphemeralPort.2) {}
      (churn k ++ [.bind 0 (some 0)]) := by
  intro hmeets
  have hlast := hmeets.of_append.2
  rw [run_churn (Nat.le_of_eq hk), hk] at hlast
  obtain ⟨hallocates, -⟩ := hlast
  have hallocates := hallocates ⟨rfl, nofun⟩
  rw [allocateEphemeralPort_eq] at hallocates
  exact absurd (hallocates.1 ⟨49152, by decide, rfl⟩).1 (by decide)

/-- **The cursor leaves the range**: after 16384 sockets the next is refused, although every
port is free. -/
theorem churned :
    ¬ GuardedRun.Meets UDPLayer.step
      (fun u x => x.Picks → Allocates u.isBound u.allocateEphemeralPort.2) {}
      (UDPLayer.churn 16384 ++ [.bind 0 (some 0)]) :=
  UDPLayer.refuses rfl

end NeuStack
