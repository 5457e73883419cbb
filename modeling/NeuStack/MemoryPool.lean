import NeuStack.Scan
import NeuStack.DoublyLinked
import NeuStack.FirewallEngine
import Mathlib.Data.Fintype.Card
import Mathlib.Data.List.Range

/-! # The object pool

`FixedPool<T, N>` keeps its free list inside the storage of the objects: a free slot
begins with the address of the next one.  The model is the memory itself.  A pool has a
place (`PoolPlace`): the address of its storage, the size of `T`, the number of slots;
constructing, changing and destroying an object overwrite any bytes of it, and the link is
read back from the bytes that `release` and `reset` left.

`PoolUse` is a pool with the pointers its owner holds.  The claim of the pool is that the
links run through exactly the slots nobody holds (`Threaded`), in every order of the calls.
-/

/-! ## Words in memory -/

namespace Memory

/-- The unsigned number in the `n` bytes from `a`, the lowest first. -/
def word (mem : Memory) : Nat → Nat → Nat
  | 0, _ => 0
  | n + 1, a => (mem a).toNat + 256 * mem.word n (a + 1)

/-- Write the number `v` into the `n` bytes from `a`. -/
def setWord (mem : Memory) : Nat → Nat → Nat → Memory
  | 0, _, _ => mem
  | n + 1, a, v => Function.update (mem.setWord n (a + 1) (v / 256)) a (UInt8.ofNat v)

/-- Overwrite the `n` bytes from `a`. -/
def fill (mem : Memory) (a n : Nat) (bytes : Nat → UInt8) : Memory :=
  fun x => if a ≤ x ∧ x < a + n then bytes (x - a) else mem x

variable {mem mem' : Memory}

theorem word_congr {n a : Nat} (h : ∀ x, a ≤ x → x < a + n → mem x = mem' x) :
    mem.word n a = mem'.word n a := by
  induction n generalizing a with
  | zero => rfl
  | succ n ih =>
    rw [word, word, h a (Nat.le_refl a) (by omega), ih fun x hx hlt => h x (by omega) (by omega)]

/-- A word keeps the bytes beside it. -/
theorem setWord_apply {n a v x : Nat} (h : x < a ∨ a + n ≤ x) : mem.setWord n a v x = mem x := by
  induction n generalizing a v with
  | zero => rfl
  | succ n ih => rw [setWord, Function.update_of_ne (by omega), ih (by omega)]

/-- **What was written is read back.** -/
theorem word_setWord {n a v : Nat} (h : v < 256 ^ n) : (mem.setWord n a v).word n a = v := by
  induction n generalizing a v with
  | zero =>
    rw [Nat.pow_zero, Nat.lt_one_iff] at h
    exact h.symm
  | succ n ih =>
    have hrest : (mem.setWord (n + 1) a v).word n (a + 1) = v / 256 := by
      rw [← ih (Nat.div_lt_of_lt_mul (Nat.pow_succ' (n := n) ▸ h))]
      exact word_congr fun x hx _ => Function.update_of_ne (by omega) ..
    have hfirst : mem.setWord (n + 1) a v a = UInt8.ofNat v := Function.update_self ..
    rw [word, hrest, hfirst, UInt8.toNat_ofNat']
    omega

theorem word_setWord_of_apart {n a b v : Nat} (h : a + n ≤ b ∨ b + n ≤ a) :
    (mem.setWord n b v).word n a = mem.word n a :=
  word_congr fun _ _ _ => setWord_apply (by omega)

theorem word_fill_of_apart {n m a b : Nat} {bytes : Nat → UInt8} (h : a + n ≤ b ∨ b + m ≤ a) :
    (mem.fill b m bytes).word n a = mem.word n a :=
  word_congr fun _ _ _ => if_neg (by omega)

end Memory

namespace NeuStack
namespace MemoryPool
open DoublyLinked (Leads)

/-- `SLOT_SIZE`: room for a `T` and for a `FreeNode`, which is one pointer. -/
def slotSize (sizeofT : Nat) : Nat := if 8 < sizeofT then sizeofT else 8

/-- A `FixedPool<T, N>` somewhere in memory; `start` is `_storage.data()`. -/
structure PoolPlace where
  sizeofT : Nat
  capacity : Nat
  start : Nat
  capacity_pos : 0 < capacity
  start_pos : 0 < start
  fits : start + slotSize sizeofT * capacity < 2 ^ 64

namespace PoolPlace
variable (place : PoolPlace)

/-- `&_storage[index * SLOT_SIZE]`. -/
def slot (index : Nat) : Nat := place.start + index * slotSize place.sizeofT

/-- The slot addresses. -/
def slots : List Nat := (List.range place.capacity).map place.slot

/-- `owns`. -/
def owns : Option Nat → Bool
  | none => false
  | some obj =>
    if obj < place.start ∨ place.start + slotSize place.sizeofT * place.capacity ≤ obj then false
    else (obj - place.start) % slotSize place.sizeofT == 0

variable {place} {a b : Nat}

theorem le_slotSize (n : Nat) : n ≤ slotSize n ∧ 8 ≤ slotSize n := by
  rw [slotSize]
  split <;> omega

theorem mem_slots : a ∈ place.slots ↔ ∃ i < place.capacity, place.slot i = a := by
  simp only [slots, List.mem_map, List.mem_range]

theorem length_slots : place.slots.length = place.capacity := by
  rw [slots, List.length_map, List.length_range]

/-- Two slots do not overlap. -/
theorem apart (ha : a ∈ place.slots) (hb : b ∈ place.slots) (hne : a ≠ b) :
    a + slotSize place.sizeofT ≤ b ∨ b + slotSize place.sizeofT ≤ a := by
  obtain ⟨i, -, rfl⟩ := mem_slots.mp ha
  obtain ⟨j, -, rfl⟩ := mem_slots.mp hb
  have hij : i ≠ j := fun h => hne (h ▸ rfl)
  rcases Nat.lt_or_gt_of_ne hij with h | h
  · have := Nat.mul_le_mul_right (slotSize place.sizeofT) (Nat.succ_le_of_lt h)
    simp only [slot, Nat.succ_mul] at this ⊢
    omega
  · have := Nat.mul_le_mul_right (slotSize place.sizeofT) (Nat.succ_le_of_lt h)
    simp only [slot, Nat.succ_mul] at this ⊢
    omega

theorem nodup_slots : place.slots.Nodup := by
  refine List.Nodup.map (fun i j hij => ?_) List.nodup_range
  have hpos : 0 < slotSize place.sizeofT := Nat.lt_of_lt_of_le (by decide) (le_slotSize _).2
  exact Nat.eq_of_mul_eq_mul_right hpos (Nat.add_left_cancel hij)

/-- A slot address is a pointer that a `FreeNode*` holds, and not null. -/
theorem bounds_of_mem_slots (ha : a ∈ place.slots) : 0 < a ∧ a < 256 ^ 8 := by
  obtain ⟨i, hi, rfl⟩ := mem_slots.mp ha
  have hend := Nat.mul_le_mul_left (slotSize place.sizeofT) hi.le
  have hfits := place.fits
  have hstart := place.start_pos
  rw [slot, Nat.mul_comm]
  omega

/-- **`owns` knows the slot addresses.** -/
theorem owns_iff : place.owns (some a) = true ↔ a ∈ place.slots := by
  have hpos : 0 < slotSize place.sizeofT := Nat.lt_of_lt_of_le (by decide) (le_slotSize _).2
  rw [mem_slots, owns]
  constructor
  · intro h
    split at h
    · cases h
    · rename_i hrange
      rw [not_or, Nat.not_lt, Nat.not_le] at hrange
      refine ⟨(a - place.start) / slotSize place.sizeofT, ?_, ?_⟩
      · exact Nat.div_lt_of_lt_mul (by omega)
      · rw [slot, Nat.div_mul_cancel (Nat.dvd_of_mod_eq_zero (beq_iff_eq.mp h))]
        omega
  · rintro ⟨i, hi, rfl⟩
    have hend : place.slot i < place.start + slotSize place.sizeofT * place.capacity := by
      rw [slot, Nat.mul_comm]
      exact Nat.add_lt_add_left (Nat.mul_lt_mul_of_pos_left hi hpos) _
    rw [if_neg (by rw [slot] at hend ⊢; omega), slot, Nat.add_sub_cancel_left, Nat.mul_mod_left]
    rfl

end PoolPlace

/-- `node->next`; a null pointer is `none`. -/
def next (mem : Memory) (node : Nat) : Option Nat :=
  if mem.word 8 node = 0 then none else some (mem.word 8 node)

/-- `node->next = p`. -/
def setNext (mem : Memory) (node : Nat) (p : Option Nat) : Memory := mem.setWord 8 node (p.getD 0)

theorem next_setNext {mem : Memory} {node : Nat} {p : Option Nat}
    (hp : ∀ a, p = some a → 0 < a ∧ a < 256 ^ 8) : next (setNext mem node p) node = p := by
  have hlt : p.getD 0 < 256 ^ 8 := by
    cases p with
    | none => decide
    | some a => exact (hp a rfl).2
  rw [next, setNext, Memory.word_setWord hlt]
  cases p with
  | none => rfl
  | some a => exact if_neg (Nat.pos_iff_ne_zero.mp (hp a rfl).1)

theorem next_congr {mem mem' : Memory} {node : Nat} (h : mem.word 8 node = mem'.word 8 node) :
    next mem node = next mem' node := by
  rw [next, next, h]

/-- `class FixedPool`. -/
structure FixedPool where
  mem : Memory
  freeHead : Option Nat := none
  inUse : Nat := 0

namespace FixedPool
variable (place : PoolPlace) (p : FixedPool)

/-- The loop of `reset`, for the slots below `i`. -/
def resetLoop : Nat → FixedPool → FixedPool
  | 0, p => p
  | i + 1, p =>
    let node := place.slot i
    resetLoop i { p with mem := setNext p.mem node p.freeHead, freeHead := some node }

def reset : FixedPool := resetLoop place place.capacity { p with inUse := 0, freeHead := none }

/-- `acquire`; the constructor of `T` leaves the bytes `obj`. -/
def acquire (obj : Nat → UInt8) : Option Nat × FixedPool :=
  match p.freeHead with
  | none => (none, p)
  | some node =>
    (some node,
      { mem := p.mem.fill node place.sizeofT obj, freeHead := next p.mem node,
        inUse := p.inUse + 1 })

/-- `release`; the destructor of `T` leaves the bytes `left`. -/
def release (obj : Option Nat) (left : Nat → UInt8) : FixedPool :=
  match obj with
  | none => p
  | some node =>
    { mem := setNext (p.mem.fill node place.sizeofT left) node p.freeHead, freeHead := some node,
      inUse := p.inUse - 1 }

def available : Nat := place.capacity - p.inUse

end FixedPool

/-- What happens to a pool: its calls, and changes of an object through its pointer. -/
inductive PoolCall where
  | acquire (obj : Nat → UInt8)
  | release (obj : Option Nat) (left : Nat → UInt8)
  | write (obj : Nat) (bytes : Nat → UInt8)

/-- A pool, and the pointers that were acquired and not released. -/
structure PoolUse where
  pool : FixedPool
  held : List Nat := []

namespace PoolUse
variable (place : PoolPlace)

/-- The constructor of the pool, in memory that holds anything. -/
def create (mem : Memory) : PoolUse := { pool := ({ mem } : FixedPool).reset place }

def step (u : PoolUse) : PoolCall → PoolUse
  | .acquire obj =>
    { pool := (u.pool.acquire place obj).2, held := (u.pool.acquire place obj).1.toList ++ u.held }
  | .release obj left =>
    { pool := u.pool.release place obj left, held := obj.elim u.held u.held.erase }
  | .write obj bytes => { u with pool.mem := u.pool.mem.fill obj place.sizeofT bytes }

/-- Only pointers that are held are released and written through; releasing a null
pointer is allowed. -/
def Owned (u : PoolUse) : PoolCall → Prop
  | .acquire _ => True
  | .release obj _ => ∀ a ∈ obj, a ∈ u.held
  | .write obj _ => obj ∈ u.held

instance : (u : PoolUse) → (c : PoolCall) → Decidable (Owned u c)
  | _, .acquire _ => .isTrue trivial
  | _, .release none _ => .isTrue nofun
  | u, .release (some a) _ =>
    decidable_of_iff (a ∈ u.held) ⟨fun h _ hb => Option.some.inj hb ▸ h, fun h => h a rfl⟩
  | u, .write obj _ => inferInstanceAs (Decidable (obj ∈ u.held))

/-- **The free list.**  The links run through `free`, which with the held pointers makes
up the slots. -/
structure Threaded (u : PoolUse) (free : List Nat) : Prop where
  head : u.pool.freeHead = free.head?
  leads : Leads (next u.pool.mem) free
  perm : (free ++ u.held).Perm place.slots
  count : u.pool.inUse = u.held.length

end PoolUse

/-! ## The links and the objects -/

section Links
variable {place : PoolPlace} {mem : Memory} {a : Nat} {free : List Nat}

/-- The bytes of an object are none of a free slot's. -/
theorem leads_fill (hl : Leads (next mem) free) (hfree : ∀ b ∈ free, b ∈ place.slots)
    (ha : a ∈ place.slots) (hnot : a ∉ free) (bytes : Nat → UInt8) :
    Leads (next (mem.fill a place.sizeofT bytes)) free := by
  refine hl.congr fun b hb => next_congr (Memory.word_fill_of_apart ?_)
  have hsize := PoolPlace.le_slotSize place.sizeofT
  have := PoolPlace.apart (hfree b hb) ha fun h => hnot (h ▸ hb)
  omega

/-- A link written into a slot puts it in front of the list. -/
theorem leads_setNext (hl : Leads (next mem) free) (hfree : ∀ b ∈ free, b ∈ place.slots)
    (ha : a ∈ place.slots) (hnot : a ∉ free) :
    Leads (next (setNext mem a free.head?)) (a :: free) := by
  have hptr : ∀ b, free.head? = some b → 0 < b ∧ b < 256 ^ 8 := fun b hb =>
    PoolPlace.bounds_of_mem_slots (hfree b (List.mem_of_mem_head? (Option.mem_def.mpr hb)))
  refine ⟨next_setNext hptr, hl.congr fun b hb => next_congr (Memory.word_setWord_of_apart ?_)⟩
  have hsize := PoolPlace.le_slotSize place.sizeofT
  have := PoolPlace.apart (hfree b hb) ha fun h => hnot (h ▸ hb)
  omega

/-- `reset` links what is below `i` in front of what is linked already. -/
theorem resetLoop_links {i : Nat} (hi : i ≤ place.capacity) {p : FixedPool}
    (hhead : p.freeHead = (place.slots.drop i).head?)
    (hl : Leads (next p.mem) (place.slots.drop i)) :
    (FixedPool.resetLoop place i p).freeHead = place.slots.head? ∧
      Leads (next (FixedPool.resetLoop place i p).mem) place.slots ∧
      (FixedPool.resetLoop place i p).inUse = p.inUse := by
  induction i generalizing p with
  | zero => exact ⟨hhead, hl, rfl⟩
  | succ i ih =>
    have hdrop : place.slots.drop i = place.slot i :: place.slots.drop (i + 1) := by
      rw [List.drop_eq_getElem_cons (PoolPlace.length_slots.symm ▸ hi)]
      simp only [PoolPlace.slots, List.getElem_map, List.getElem_range]
    have hmem : place.slot i ∈ place.slots := PoolPlace.mem_slots.mpr ⟨i, hi, rfl⟩
    have hnot : place.slot i ∉ place.slots.drop (i + 1) := by
      have hnodup := (List.drop_sublist i place.slots).nodup PoolPlace.nodup_slots
      rw [hdrop] at hnodup
      exact (List.nodup_cons.mp hnodup).1
    have hlinked := leads_setNext hl (fun b hb => List.mem_of_mem_drop hb) hmem hnot
    rw [← hhead, ← hdrop] at hlinked
    refine ih (Nat.le_of_succ_le hi) ?_ hlinked
    rw [hdrop]
    rfl

end Links

namespace PoolUse
variable {place : PoolPlace} {u : PoolUse} {free : List Nat}

theorem Threaded.create (mem : Memory) : Threaded place (create place mem) place.slots := by
  have hend : place.slots.drop place.capacity = [] :=
    List.drop_eq_nil_of_le (Nat.le_of_eq PoolPlace.length_slots)
  obtain ⟨hhead, hl, hcount⟩ := resetLoop_links (Nat.le_refl place.capacity) (p := { mem })
    (hend.symm ▸ rfl) (hend.symm ▸ trivial)
  exact ⟨hhead, hl, List.append_nil _ ▸ List.Perm.refl _, hcount⟩

variable (h : Threaded place u free)
include h

theorem Threaded.nodup : (free ++ u.held).Nodup := h.perm.nodup_iff.mpr PoolPlace.nodup_slots

theorem Threaded.free_slots : ∀ a ∈ free, a ∈ place.slots :=
  fun _ ha => h.perm.subset (List.mem_append_left _ ha)

theorem Threaded.held_slots : ∀ a ∈ u.held, a ∈ place.slots :=
  fun _ ha => h.perm.subset (List.mem_append_right _ ha)

theorem Threaded.not_free {a : Nat} (ha : a ∈ u.held) : a ∉ free :=
  fun hfree => List.disjoint_of_nodup_append h.nodup hfree ha

/-- The free slots are those that nobody holds. -/
theorem Threaded.mem_free_iff {a : Nat} : a ∈ free ↔ a ∈ place.slots ∧ a ∉ u.held := by
  constructor
  · exact fun ha => ⟨h.free_slots a ha, fun hheld => h.not_free hheld ha⟩
  · rintro ⟨hslot, hnot⟩
    exact (List.mem_append.mp (h.perm.mem_iff.mpr hslot)).resolve_right hnot

theorem Threaded.length_eq : free.length + u.held.length = place.capacity := by
  rw [← List.length_append, h.perm.length_eq, PoolPlace.length_slots]

/-- What `acquire` does: the first free slot, if there is one. -/
theorem Threaded.acquire (obj : Nat → UInt8) :
    (u.pool.acquire place obj).1 = free.head? ∧
      Threaded place (u.step place (.acquire obj)) free.tail := by
  cases free with
  | nil =>
    have hstay : u.pool.acquire place obj = (none, u.pool) := by
      rw [FixedPool.acquire, h.head]
      rfl
    rw [step, hstay]
    exact ⟨rfl, h⟩
  | cons a rest =>
    have htake : u.pool.acquire place obj =
        (some a, { mem := u.pool.mem.fill a place.sizeofT obj, freeHead := next u.pool.mem a,
                   inUse := u.pool.inUse + 1 }) := by
      rw [FixedPool.acquire, h.head]
      rfl
    have hleads : Leads (next u.pool.mem) (a :: rest) := h.leads
    have hnot : a ∉ rest := (List.nodup_cons.mp (Leads.nodup hleads)).1
    have hrest : ∀ b ∈ rest, b ∈ place.slots := fun b hb =>
      h.free_slots b (List.mem_cons_of_mem _ hb)
    have hslot : a ∈ place.slots := h.free_slots a (List.mem_cons_self ..)
    have hfilled := leads_fill hleads.2 hrest hslot hnot obj
    rw [step, htake]
    refine ⟨rfl, ?_, hfilled, ?_, ?_⟩
    · dsimp only
      exact hleads.1
    · exact List.perm_middle.trans h.perm
    · exact congrArg (· + 1) h.count

theorem Threaded.release {a : Nat} (ha : a ∈ u.held) (left : Nat → UInt8) :
    Threaded place (u.step place (.release (some a) left)) (a :: free) := by
  have hslot := h.held_slots a ha
  have hfilled := leads_fill h.leads h.free_slots hslot (h.not_free ha) left
  refine ⟨rfl, ?_, ?_, ?_⟩
  · show Leads (next (setNext _ a u.pool.freeHead)) (a :: free)
    rw [h.head]
    exact leads_setNext hfilled h.free_slots hslot (h.not_free ha)
  · exact ((List.perm_cons_erase ha).append_left free |>.trans List.perm_middle).symm.trans h.perm
  · show u.pool.inUse - 1 = (u.held.erase a).length
    rw [h.count, List.length_erase_of_mem ha]

/-- **One call.** -/
theorem Threaded.step (c : PoolCall) (hc : u.Owned c) :
    ∃ free', Threaded place (u.step place c) free' := by
  cases c with
  | acquire obj => exact ⟨_, (h.acquire obj).2⟩
  | release obj left =>
    cases obj with
    | none => exact ⟨free, h⟩
    | some a => exact ⟨_, h.release (hc a rfl) left⟩
  | write a bytes =>
    refine ⟨free, h.head, ?_, h.perm, h.count⟩
    exact leads_fill h.leads h.free_slots (h.held_slots a hc) (h.not_free hc) bytes

omit h

/-- **The free list after every sequence of calls.** -/
theorem run_threaded {mem : Memory} {calls : List PoolCall}
    (hcalls : GuardedRun.Meets (step place) Owned (create place mem) calls) :
    ∃ free, Threaded place (GuardedRun.run (step place) (create place mem) calls) free :=
  GuardedRun.Meets.invariant (P := fun u => ∃ free, Threaded place u free)
    (fun _ c ⟨_, h⟩ hc => h.step c hc) ⟨_, Threaded.create mem⟩ hcalls

/-- **A slot is never handed out twice.**  In every order of the calls the links run
through the slots nobody holds, each once, and `acquire` takes one of these while there
is one. -/
theorem slot_held_once (place : PoolPlace) (mem : Memory) (calls : List PoolCall)
    (hcalls : GuardedRun.Meets (step place) Owned (create place mem) calls) :
    let u := GuardedRun.run (step place) (create place mem) calls
    (∃ free : List Nat, u.pool.freeHead = free.head? ∧ Leads (next u.pool.mem) free ∧
      free.Nodup ∧ ∀ a, a ∈ free ↔ a ∈ place.slots ∧ a ∉ u.held) ∧
    (∀ obj a, (u.pool.acquire place obj).1 = some a → a ∈ place.slots ∧ a ∉ u.held) ∧
    (∀ obj, (u.pool.acquire place obj).1 = none ↔ u.held.length = place.capacity) ∧
    u.held.Nodup ∧ (∀ a ∈ u.held, a ∈ place.slots) ∧
    u.pool.inUse = u.held.length ∧ u.pool.inUse + u.pool.available place = place.capacity ∧
    place.owns none = false ∧ ∀ a, place.owns (some a) = true ↔ a ∈ place.slots := by
  intro u
  obtain ⟨free, h⟩ : ∃ free, Threaded place u free := run_threaded hcalls
  have hlength := h.length_eq
  refine ⟨⟨free, h.head, h.leads, h.leads.nodup, fun a => h.mem_free_iff⟩, ?_, ?_,
    (List.nodup_append.mp h.nodup).2.1, h.held_slots, h.count, ?_, rfl,
    fun a => PoolPlace.owns_iff⟩
  · intro obj a ha
    rw [(h.acquire obj).1] at ha
    exact h.mem_free_iff.mp (List.mem_of_mem_head? (Option.mem_def.mpr ha))
  · intro obj
    rw [(h.acquire obj).1, List.head?_eq_none_iff, ← List.length_eq_zero_iff]
    exact ⟨fun hzero => by omega, fun hfull => by omega⟩
  · have hcount := h.count
    rw [FixedPool.available]
    omega

/-- Two slots of eight bytes for objects of four. -/
def twoInts : PoolPlace := ⟨4, 2, 4096, by decide, by decide, by decide⟩

/-- A pool filled, the first object given back, and the second overwritten. -/
def twoIntsCalls : List PoolCall :=
  [.acquire fun _ => 1, .acquire fun _ => 2, .release (some 4096) fun _ => 0xff,
    .write 4104 fun _ => 0xff]

theorem slot_held_once_twoInts :
    let u := GuardedRun.run (step twoInts) (create twoInts fun _ => 0xff) twoIntsCalls
    u.held = [4104] ∧ (∀ obj, (u.pool.acquire twoInts obj).1 = none ↔ u.held.length = 2) :=
  ⟨by decide +kernel,
    (slot_held_once twoInts (fun _ => 0xff) twoIntsCalls (by decide +kernel)).2.2.1⟩

/-! ## The pool by its count -/

/-- The pool as `FirewallEngine` sees it: how many slots are free. -/
def counted (place : PoolPlace) (u : PoolUse) : NeuStack.FixedPool := ⟨u.pool.available place⟩

/-- **The count is all that decides.**  `acquire` of the counted pool is `acquire` of the
linked one, with the slot forgotten. -/
theorem Threaded.counted_acquire (h : Threaded place u free) (obj : Nat → UInt8) :
    (u.counted place).acquire =
      (u.pool.acquire place obj).1.map fun _ => (u.step place (.acquire obj)).counted place := by
  obtain ⟨hfirst, hnext⟩ := h.acquire obj
  have hlength := h.length_eq
  have hlength' := hnext.length_eq
  have hcount := h.count
  have hcount' := hnext.count
  rw [List.length_tail] at hlength'
  rw [hfirst]
  show (if 0 < place.capacity - u.pool.inUse then some (NeuStack.FixedPool.mk _) else none) = _
  cases free with
  | nil =>
    rw [List.length_nil] at hlength
    exact if_neg (by omega)
  | cons a rest =>
    rw [List.length_cons] at hlength hlength'
    rw [if_pos (by omega)]
    refine congrArg (fun n => some (NeuStack.FixedPool.mk n)) ?_
    show place.capacity - _ - 1 = place.capacity - _
    omega

theorem Threaded.counted_release (h : Threaded place u free) {a : Nat} (ha : a ∈ u.held)
    (left : Nat → UInt8) :
    (u.counted place).release = (u.step place (.release (some a) left)).counted place := by
  have hnext := h.release ha left
  have hlength := h.length_eq
  have hlength' := hnext.length_eq
  have hcount := h.count
  have hcount' := hnext.count
  rw [List.length_cons] at hlength'
  refine congrArg NeuStack.FixedPool.mk ?_
  show place.capacity - _ + 1 = place.capacity - _
  omega

end PoolUse
end MemoryPool
end NeuStack
