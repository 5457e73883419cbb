import NeuStack.WrapRing
import NeuStack.GuardedRun

/-! # The AF_XDP rings

`XdpRing<T>` with `2 ^ k` slots: the two positions and the slots in the memory it
shares with the kernel, and the two positions it has cached.  `reserve` and `peek`
cache a position and say how many slots from there on may be written, or read;
nothing of this shows in the ring until `submit` or `release` moves the position.

The two sides run at once.  An `XdpSession` is a ring with a thread on each side, and
the two loads of `reserve` and of `peek` are steps of their own.
-/
namespace NeuStack

structure XdpRing (α : Type) (k : Fin 32) where
  producer : BitVec 32
  consumer : BitVec 32
  descs : Nat → α
  cachedProd : BitVec 32 := 0
  cachedCons : BitVec 32 := 0

namespace XdpRing
variable {α : Type} {k : Fin 32}

/-- `_size`. -/
def size (_ : XdpRing α k) : BitVec 32 := BitVec.ofNat 32 (2 ^ k.val)

/-- `reserve`, once the producer's own position has been loaded. -/
def grant (prod count : BitVec 32) (r : XdpRing α k) : BitVec 32 × XdpRing α k :=
  let cons := r.consumer
  let free := r.size - (prod - cons)
  (if free < count then free else count, { r with cachedProd := prod })

def reserve (count : BitVec 32) (r : XdpRing α k) : BitVec 32 × XdpRing α k :=
  r.grant r.producer count

/-- The slot that `ring_at` refers to. -/
def slotAt (idx : BitVec 32) (r : XdpRing α k) : Nat := WrapRing.slot k (r.cachedProd + idx)

/-- An assignment to `ring_at(idx)`. -/
def setRingAt (idx : BitVec 32) (v : α) (r : XdpRing α k) : XdpRing α k :=
  { r with descs := Function.update r.descs (r.slotAt idx) v }

def submit (count : BitVec 32) (r : XdpRing α k) : XdpRing α k :=
  { r with producer := r.cachedProd + count }

/-- `peek`, once the consumer's own position has been loaded. -/
def look (cons count : BitVec 32) (r : XdpRing α k) : BitVec 32 × XdpRing α k :=
  let prod := r.producer
  let available := prod - cons
  (if available < count then available else count, { r with cachedCons := cons })

def peek (count : BitVec 32) (r : XdpRing α k) : BitVec 32 × XdpRing α k :=
  r.look r.consumer count

def ringAtConsumer (idx : BitVec 32) (r : XdpRing α k) : α :=
  r.descs (WrapRing.slot k (r.cachedCons + idx))

def release (count : BitVec 32) (r : XdpRing α k) : XdpRing α k :=
  { r with consumer := r.cachedCons + count }

/-- One entry consumed. -/
def take (r : XdpRing α k) : Option (α × XdpRing α k) :=
  let (n, r) := r.peek 1
  if n = 0 then none else some (r.ringAtConsumer 0, r.release 1)

/-- One entry produced, where there is room. -/
def put (v : α) (r : XdpRing α k) : Option (XdpRing α k) :=
  let (n, r) := r.reserve 1
  if n = 0 then none else some ((r.setRingAt 0 v).submit 1)

/-! ## The entries in the ring -/

/-- How many entries have been submitted and not been released. -/
def used (r : XdpRing α k) : Nat := (r.producer - r.consumer).toNat

/-- These entries, oldest first. -/
def unconsumed (r : XdpRing α k) : List α := WrapRing.contents k r.descs r.consumer r.used

/-- What was written to the first `n` slots of the reservation. -/
def reserved (n : Nat) (r : XdpRing α k) : List α := WrapRing.contents k r.descs r.cachedProd n

/-- What the first `n` slots of the peek hold. -/
def peeked (n : Nat) (r : XdpRing α k) : List α := WrapRing.contents k r.descs r.cachedCons n

variable {r : XdpRing α k}

theorem pow_lt (k : Fin 32) : 2 ^ k.val < 2 ^ 32 := Nat.pow_lt_pow_right (by decide) k.isLt

theorem toNat_size (r : XdpRing α k) : r.size.toNat = 2 ^ k.val := by
  rw [size, BitVec.toNat_ofNat, Nat.mod_eq_of_lt (pow_lt k)]

@[simp] theorem length_unconsumed (r : XdpRing α k) : r.unconsumed.length = r.used :=
  WrapRing.length_contents ..

theorem producer_eq (r : XdpRing α k) : r.producer = r.consumer + BitVec.ofNat 32 r.used :=
  WrapRing.eq_add_of_sub rfl

theorem grant_le (prod count : BitVec 32) (r : XdpRing α k) :
    (r.grant prod count).1.toNat ≤ count.toNat := by
  show BitVec.toNat (if _ < count then _ else count) ≤ _
  split
  · rename_i hlt
    exact Nat.le_of_lt (BitVec.lt_def.mp hlt)
  · exact Nat.le_refl _

/-- No more is granted than there is room. -/
theorem grant_room (count : BitVec 32) (h : r.used ≤ 2 ^ k.val) :
    r.used + (r.grant r.producer count).1.toNat ≤ 2 ^ k.val := by
  have hfree : (r.size - (r.producer - r.consumer)).toNat = 2 ^ k.val - r.used := by
    rw [BitVec.toNat_sub_of_le, toNat_size]
    · rfl
    · rw [BitVec.le_def, toNat_size]
      exact h
  show _ + BitVec.toNat (if _ then _ else count) ≤ _
  split
  · omega
  · rename_i hle
    have hle : count.toNat ≤ _ := BitVec.not_lt.mp hle
    omega

/-- No more is seen than there is. -/
theorem look_le (count : BitVec 32) : (r.look r.consumer count).1.toNat ≤ r.used := by
  show BitVec.toNat (if _ < count then _ else count) ≤ _
  split
  · exact Nat.le_refl _
  · rename_i hle
    exact BitVec.not_lt.mp hle

/-- The slots that are free are none of an unconsumed entry. -/
theorem slot_free {i j : Nat} (hj : j < r.used) (hi : r.used + i < 2 ^ k.val) :
    WrapRing.slot k (r.consumer + BitVec.ofNat 32 j) ≠
      WrapRing.slot k (r.producer + BitVec.ofNat 32 i) := by
  rw [r.producer_eq, SerialNumber.add_ofNat_add]
  exact WrapRing.slot_ne (Nat.le_of_lt k.isLt) _ (by omega) (by omega)

section Producer
variable (hcached : r.cachedProd = r.producer)
include hcached

/-- Writing to a reserved slot leaves the entries. -/
theorem unconsumed_setRingAt {idx : BitVec 32} (hroom : r.used + idx.toNat < 2 ^ k.val) (v : α) :
    (r.setRingAt idx v).unconsumed = r.unconsumed := by
  refine WrapRing.contents_update v fun j hj => ?_
  have hne := slot_free (r := r) hj hroom
  rwa [BitVec.ofNat_toNat, BitVec.setWidth_eq, ← hcached] at hne

theorem used_submit (count : BitVec 32) (hroom : r.used + count.toNat ≤ 2 ^ k.val) :
    (r.submit count).used = r.used + count.toNat := by
  have hlt := pow_lt k
  have hused : r.used = (r.producer - r.consumer).toNat := rfl
  have hmove := WrapRing.toNat_sub_move (x := r.consumer) (y := r.producer) (a := 0)
    (b := count.toNat) (Nat.zero_le _) (by omega)
  rw [BitVec.ofNat_toNat, BitVec.setWidth_eq, BitVec.add_zero, ← hcached] at hmove
  show (r.cachedProd + count - r.consumer).toNat = _
  rw [hmove, hcached]
  rfl

/-- The entries are published behind the others. -/
theorem unconsumed_submit {count : BitVec 32} (hroom : r.used + count.toNat ≤ 2 ^ k.val) :
    (r.submit count).unconsumed = r.unconsumed ++ r.reserved count.toNat := by
  rw [unconsumed, used_submit hcached count hroom]
  show WrapRing.contents k r.descs r.consumer _ = _
  rw [WrapRing.contents_add, ← r.producer_eq, ← hcached]
  rfl

end Producer

section Consumer
variable (hcached : r.cachedCons = r.consumer)
include hcached

theorem used_release (count : BitVec 32) (hle : count.toNat ≤ r.used) :
    (r.release count).used = r.used - count.toNat := by
  have hlt := (r.producer - r.consumer).isLt
  have hmove := WrapRing.toNat_sub_move (x := r.consumer) (y := r.producer) (a := count.toNat)
    (b := 0) hle hlt
  rw [BitVec.ofNat_toNat, BitVec.setWidth_eq, BitVec.add_zero, ← hcached] at hmove
  show (r.producer - (r.cachedCons + count)).toNat = _
  rw [hmove, hcached]
  rfl

/-- The oldest entries are released. -/
theorem unconsumed_release (count : BitVec 32) (hle : count.toNat ≤ r.used) :
    r.unconsumed = r.peeked count.toNat ++ (r.release count).unconsumed := by
  rw [unconsumed, unconsumed, used_release hcached count hle]
  show _ = _ ++ WrapRing.contents k r.descs (r.cachedCons + count) _
  obtain ⟨n, hn⟩ : ∃ n, r.used = count.toNat + n := ⟨_, (Nat.add_sub_cancel' hle).symm⟩
  rw [hn, WrapRing.contents_add, Nat.add_sub_cancel_left, peeked, hcached, BitVec.ofNat_toNat,
    BitVec.setWidth_eq]

end Consumer

/-! ## One side, while the other works -/

/-- The slots from the cached position on, as many as `n`, are free. -/
def Granted (n : Nat) (r : XdpRing α k) : Prop :=
  r.cachedProd = r.producer ∧ r.used + n ≤ 2 ^ k.val

/-- The slots from the cached position on, as many as `n`, hold entries. -/
def Seen (n : Nat) (r : XdpRing α k) : Prop := r.cachedCons = r.consumer ∧ n ≤ r.used

/-- What a consumer may have done. -/
structure Drained (r r' : XdpRing α k) : Prop where
  producer : r'.producer = r.producer
  cachedProd : r'.cachedProd = r.cachedProd
  descs : r'.descs = r.descs
  taken : ∃ xs, r.unconsumed = xs ++ r'.unconsumed

/-- What a producer may have done. -/
structure Fed (r r' : XdpRing α k) : Prop where
  consumer : r'.consumer = r.consumer
  cachedCons : r'.cachedCons = r.cachedCons
  added : ∃ xs, r'.unconsumed = r.unconsumed ++ xs

variable {r' r'' : XdpRing α k} {n m : Nat}

theorem Drained.refl (r : XdpRing α k) : Drained r r := ⟨rfl, rfl, rfl, [], rfl⟩

theorem Drained.trans (h : Drained r r') (h' : Drained r' r'') : Drained r r'' := by
  obtain ⟨xs, hxs⟩ := h.taken
  obtain ⟨ys, hys⟩ := h'.taken
  exact ⟨h'.producer.trans h.producer, h'.cachedProd.trans h.cachedProd, h'.descs.trans h.descs,
    xs ++ ys, by rw [hxs, hys, List.append_assoc]⟩

theorem Drained.used_le (h : Drained r r') : r'.used ≤ r.used := by
  obtain ⟨xs, hxs⟩ := h.taken
  have hlen := congrArg List.length hxs
  rw [List.length_append, length_unconsumed, length_unconsumed] at hlen
  omega

theorem Fed.refl (r : XdpRing α k) : Fed r r := ⟨rfl, rfl, [], (List.append_nil _).symm⟩

theorem Fed.trans (h : Fed r r') (h' : Fed r' r'') : Fed r r'' := by
  obtain ⟨xs, hxs⟩ := h.added
  obtain ⟨ys, hys⟩ := h'.added
  exact ⟨h'.consumer.trans h.consumer, h'.cachedCons.trans h.cachedCons,
    xs ++ ys, by rw [hys, hxs, List.append_assoc]⟩

theorem Fed.used_le (h : Fed r r') : r.used ≤ r'.used := by
  obtain ⟨xs, hxs⟩ := h.added
  have hlen := congrArg List.length hxs
  rw [List.length_append, length_unconsumed, length_unconsumed] at hlen
  omega

theorem reserve_granted (count : BitVec 32) (h : r.used ≤ 2 ^ k.val) :
    (r.reserve count).2.Granted (r.reserve count).1.toNat :=
  ⟨rfl, grant_room count h⟩

theorem peek_seen (count : BitVec 32) (r : XdpRing α k) :
    (r.peek count).2.Seen (r.peek count).1.toNat :=
  ⟨rfl, look_le count⟩

theorem Granted.drained (h : r.Granted n) (hr : Drained r r') : r'.Granted n := by
  obtain ⟨hcached, hroom⟩ := h
  have hle := hr.used_le
  exact ⟨by rw [hr.cachedProd, hr.producer, hcached], by omega⟩

theorem Drained.reserved (hr : Drained r r') (m : Nat) : r'.reserved m = r.reserved m := by
  rw [XdpRing.reserved, XdpRing.reserved, hr.descs, hr.cachedProd]

/-- The positions below `2 ^ k` are positions of 32 bits. -/
theorem toNat_ofNat (k : Fin 32) (h : n ≤ 2 ^ k.val) : (BitVec.ofNat 32 n).toNat = n := by
  have hlt := pow_lt k
  rw [BitVec.toNat_ofNat, Nat.mod_eq_of_lt (by omega)]

/-- Writing the next reserved slot. -/
theorem Granted.write (h : r.Granted n) (hm : m < n) (v : α) :
    (r.setRingAt (BitVec.ofNat 32 m) v).Granted n ∧
      (r.setRingAt (BitVec.ofNat 32 m) v).unconsumed = r.unconsumed ∧
      (r.setRingAt (BitVec.ofNat 32 m) v).reserved (m + 1) = r.reserved m ++ [v] := by
  obtain ⟨hcached, hroom⟩ := h
  have hidx := toNat_ofNat k (n := m) (by omega)
  refine ⟨⟨hcached, hroom⟩, unconsumed_setRingAt hcached (by omega) v, ?_⟩
  exact congrArg₂ (fun xs x => xs ++ [x])
    (WrapRing.contents_write (Nat.le_of_lt k.isLt) v (Nat.le_refl m) (by omega))
    (Function.update_self ..)

theorem Granted.submit (h : r.Granted n) (hm : m ≤ n) :
    (r.submit (BitVec.ofNat 32 m)).used ≤ 2 ^ k.val ∧
      (r.submit (BitVec.ofNat 32 m)).unconsumed = r.unconsumed ++ r.reserved m := by
  obtain ⟨hcached, hroom⟩ := h
  have hidx := toNat_ofNat k (n := m) (by omega)
  rw [used_submit hcached _ (by omega), unconsumed_submit hcached (by omega), hidx]
  exact ⟨by omega, rfl⟩

/-- The reads of a peek. -/
theorem map_ringAtConsumer (n : Nat) (r : XdpRing α k) :
    (List.range n).map (fun i => r.ringAtConsumer (BitVec.ofNat 32 i)) = r.peeked n := by
  induction n with
  | zero => rfl
  | succ n ih =>
    rw [List.range_succ, List.map_append, ih]
    rfl

theorem Seen.take (h : r.Seen n) : r.peeked n = r.unconsumed.take n := by
  obtain ⟨hcached, hle⟩ := h
  obtain ⟨m, hm⟩ : ∃ m, r.used = n + m := ⟨_, (Nat.add_sub_cancel' hle).symm⟩
  rw [unconsumed, hm, WrapRing.contents_add, List.take_left' (WrapRing.length_contents ..), peeked,
    hcached]

theorem Seen.fed (h : r.Seen n) (hr : Fed r r') : r'.Seen n ∧ r'.peeked n = r.peeked n := by
  have hle := hr.used_le
  have hseen : r'.Seen n := ⟨by rw [hr.cachedCons, hr.consumer, h.1], h.2.trans hle⟩
  obtain ⟨xs, hxs⟩ := hr.added
  refine ⟨hseen, ?_⟩
  rw [hseen.take, h.take, hxs, List.take_append_of_le_length]
  rw [length_unconsumed]
  exact h.2

theorem Seen.release {count : BitVec 32} (h : r.Seen count.toNat) :
    (r.release count).used ≤ r.used ∧
      r.unconsumed = r.peeked count.toNat ++ (r.release count).unconsumed := by
  refine ⟨?_, unconsumed_release h.1 _ h.2⟩
  rw [used_release h.1 _ h.2]
  omega

/-- What `take` takes is the oldest entry. -/
theorem take_eq {v : α} (h : r.take = some (v, r')) :
    Drained r r' ∧ r.unconsumed = v :: r'.unconsumed := by
  unfold XdpRing.take at h
  have hseen := r.peek_seen 1
  have hle : (r.peek 1).1.toNat ≤ 1 := by
    show BitVec.toNat (if _ < (1 : BitVec 32) then _ else 1) ≤ 1
    split
    · rename_i hlt
      exact Nat.le_of_lt (BitVec.lt_def.mp hlt)
    · exact Nat.le_refl _
  dsimp only at h
  split at h
  · cases h
  · rename_i hne
    have hone : (r.peek 1).1 = 1 := by
      have hpos : (r.peek 1).1.toNat ≠ 0 := fun hzero => hne (BitVec.eq_of_toNat_eq hzero)
      exact BitVec.eq_of_toNat_eq (show _ = 1 by omega)
    rw [hone] at hseen
    obtain ⟨rfl, rfl⟩ := Prod.mk.inj (Option.some.inj h)
    obtain ⟨-, hunconsumed⟩ := hseen.release
    have hcons : r.unconsumed = (r.peek 1).2.ringAtConsumer 0 ::
        ((r.peek 1).2.release 1).unconsumed := hunconsumed
    exact ⟨⟨rfl, rfl, rfl, [_], hcons⟩, hcons⟩

/-- What `put` puts is the newest. -/
theorem put_eq {v : α} (hbounded : r.used ≤ 2 ^ k.val) (h : r.put v = some r') :
    Fed r r' ∧ r'.used ≤ 2 ^ k.val ∧ r'.unconsumed = r.unconsumed ++ [v] := by
  unfold XdpRing.put at h
  have hgranted := reserve_granted 1 hbounded
  dsimp only at h
  split at h
  · cases h
  · rename_i hne
    have hpos : (r.reserve 1).1.toNat ≠ 0 := fun hzero => hne (BitVec.eq_of_toNat_eq hzero)
    obtain ⟨hgranted, hsame, hreserved⟩ := hgranted.write (m := 0) (by omega) v
    obtain ⟨hused, hunconsumed⟩ := hgranted.submit (m := 1) (by omega)
    rw [hsame, hreserved] at hunconsumed
    cases h
    exact ⟨⟨rfl, rfl, [v], hunconsumed⟩, hused, hunconsumed⟩

end XdpRing

/-! ## The two sides -/

/-- Where the producer is. -/
inductive XdpProducer where
  | idle
  /-- In `reserve`, between its loads. -/
  | loaded (count prod : BitVec 32)
  | reserved (granted : BitVec 32)

/-- Where the consumer is. -/
inductive XdpConsumer where
  | idle
  /-- In `peek`, between its loads. -/
  | loaded (count cons : BitVec 32)
  | peeked (returned : BitVec 32)

/-- A ring with a thread on each side, with the entries that have been submitted and
those that have been released. -/
structure XdpSession (α : Type) (k : Fin 32) where
  ring : XdpRing α k
  producer : XdpProducer := .idle
  consumer : XdpConsumer := .idle
  submitted : List α
  consumed : List α := []

/-- The atomic steps of the two threads. -/
inductive XdpStep (α : Type) where
  | reserve (count : BitVec 32)
  /-- The second load of `reserve`. -/
  | grant
  | write (idx : BitVec 32) (v : α)
  | submit (count : BitVec 32)
  | peek (count : BitVec 32)
  /-- The second load of `peek`. -/
  | look
  | release (count : BitVec 32)

namespace XdpSession
variable {α : Type} {k : Fin 32}

/-- One step.  A thread writes, submits and releases within what it was granted;
any other input leaves the session. -/
def step (s : XdpSession α k) : XdpStep α → XdpSession α k
  | .reserve count =>
    match s.producer with
    | .loaded _ _ => s
    | _ => { s with producer := .loaded count s.ring.producer }
  | .grant =>
    match s.producer with
    | .loaded count prod =>
      let (granted, ring) := s.ring.grant prod count
      { s with ring, producer := .reserved granted }
    | _ => s
  | .write idx v =>
    match s.producer with
    | .reserved granted =>
      if idx < granted then { s with ring := s.ring.setRingAt idx v } else s
    | _ => s
  | .submit count =>
    match s.producer with
    | .reserved granted =>
      if count ≤ granted then
        { s with
          ring := s.ring.submit count
          producer := .idle
          submitted := s.submitted ++ s.ring.reserved count.toNat }
      else s
    | _ => s
  | .peek count =>
    match s.consumer with
    | .loaded _ _ => s
    | _ => { s with consumer := .loaded count s.ring.consumer }
  | .look =>
    match s.consumer with
    | .loaded count cons =>
      let (returned, ring) := s.ring.look cons count
      { s with ring, consumer := .peeked returned }
    | _ => s
  | .release count =>
    match s.consumer with
    | .peeked returned =>
      if count ≤ returned then
        { s with
          ring := s.ring.release count
          consumer := .idle
          consumed := s.consumed ++ s.ring.peeked count.toNat }
      else s
    | _ => s

/-- A session on a ring that may hold entries already. -/
def init (r : XdpRing α k) : XdpSession α k where
  ring := r
  submitted := r.unconsumed

/-- Steps that publish nothing. -/
def Private : XdpStep α → Prop
  | .submit _ | .release _ => False
  | _ => True

/-- What the ring is to its two sides. -/
def view (s : XdpSession α k) : BitVec 32 × BitVec 32 × List α × List α × List α :=
  (s.ring.producer, s.ring.consumer, s.ring.unconsumed, s.submitted, s.consumed)

/-- What the producer knows of the positions. -/
def ProducerKnows (r : XdpRing α k) : XdpProducer → Prop
  | .idle => True
  | .loaded _ prod => prod = r.producer
  | .reserved n => r.Granted n.toNat

/-- What the consumer knows of them. -/
def ConsumerKnows (r : XdpRing α k) : XdpConsumer → Prop
  | .idle => True
  | .loaded _ cons => cons = r.consumer
  | .peeked n => r.Seen n.toNat

structure Inv (s : XdpSession α k) : Prop where
  bounded : s.ring.used ≤ 2 ^ k.val
  fifo : s.submitted = s.consumed ++ s.ring.unconsumed
  producer : ProducerKnows s.ring s.producer
  consumer : ConsumerKnows s.ring s.consumer

variable {s : XdpSession α k}

/-- Both threads' knowledge is of the positions only. -/
theorem ProducerKnows.of_eq {r r' : XdpRing α k} {pc : XdpProducer} (h : ProducerKnows r pc)
    (hprod : r'.producer = r.producer) (hcached : r'.cachedProd = r.cachedProd)
    (hused : r'.used ≤ r.used) : ProducerKnows r' pc := by
  cases pc with
  | idle => trivial
  | loaded count prod => exact Eq.trans h hprod.symm
  | reserved n =>
    obtain ⟨heq, hroom⟩ := h
    exact ⟨by rw [hcached, heq, hprod], by omega⟩

theorem ConsumerKnows.of_eq {r r' : XdpRing α k} {pc : XdpConsumer} (h : ConsumerKnows r pc)
    (hcons : r'.consumer = r.consumer) (hcached : r'.cachedCons = r.cachedCons)
    (hused : r.used ≤ r'.used) : ConsumerKnows r' pc := by
  cases pc with
  | idle => trivial
  | loaded count cons => exact Eq.trans h hcons.symm
  | peeked n =>
    obtain ⟨heq, hle⟩ := h
    exact ⟨by rw [hcached, heq, hcons], by omega⟩

theorem init_inv {r : XdpRing α k} (h : r.used ≤ 2 ^ k.val) : (init r).Inv :=
  ⟨h, rfl, trivial, trivial⟩

/-- A step that publishes nothing keeps the invariant and the view. -/
theorem Inv.private (h : s.Inv) {x : XdpStep α} (hx : Private x) :
    (s.step x).Inv ∧ (s.step x).view = s.view := by
  obtain ⟨hbounded, hfifo, hproducer, hconsumer⟩ := h
  unfold step
  cases x with
  | submit count => exact hx.elim
  | release count => exact hx.elim
  | reserve count =>
    dsimp only
    split
    · exact ⟨⟨hbounded, hfifo, hproducer, hconsumer⟩, rfl⟩
    · exact ⟨⟨hbounded, hfifo, rfl, hconsumer⟩, rfl⟩
  | peek count =>
    dsimp only
    split
    · exact ⟨⟨hbounded, hfifo, hproducer, hconsumer⟩, rfl⟩
    · exact ⟨⟨hbounded, hfifo, hproducer, rfl⟩, rfl⟩
  | grant =>
    dsimp only
    split
    · rename_i count prod hpc
      rw [hpc] at hproducer
      obtain rfl : prod = s.ring.producer := hproducer
      exact ⟨⟨hbounded, hfifo, ⟨rfl, XdpRing.grant_room count hbounded⟩,
        hconsumer.of_eq rfl rfl (Nat.le_refl _)⟩, rfl⟩
    · exact ⟨⟨hbounded, hfifo, hproducer, hconsumer⟩, rfl⟩
  | look =>
    dsimp only
    split
    · rename_i count cons hpc
      rw [hpc] at hconsumer
      obtain rfl : cons = s.ring.consumer := hconsumer
      exact ⟨⟨hbounded, hfifo, hproducer.of_eq rfl rfl (Nat.le_refl _),
        ⟨rfl, XdpRing.look_le count⟩⟩, rfl⟩
    · exact ⟨⟨hbounded, hfifo, hproducer, hconsumer⟩, rfl⟩
  | write idx v =>
    dsimp only
    split
    · rename_i n hpc
      split
      · rename_i hlt
        have hlt : idx.toNat < n.toNat := BitVec.lt_def.mp hlt
        rw [hpc] at hproducer
        have hsame : (s.ring.setRingAt idx v).unconsumed = s.ring.unconsumed :=
          XdpRing.unconsumed_setRingAt hproducer.1 (by have := hproducer.2; omega) v
        refine ⟨⟨hbounded, ?_, ?_, hconsumer.of_eq rfl rfl (Nat.le_refl _)⟩, ?_⟩
        · exact hfifo.trans (congrArg _ hsame.symm)
        · show ProducerKnows (s.ring.setRingAt idx v) s.producer
          rw [hpc]
          exact hproducer
        · rw [view, view, ← hsame]
          rfl
      · exact ⟨⟨hbounded, hfifo, hproducer, hconsumer⟩, rfl⟩
    · exact ⟨⟨hbounded, hfifo, hproducer, hconsumer⟩, rfl⟩

theorem Inv.submit (h : s.Inv) (count : BitVec 32) : (s.step (.submit count)).Inv := by
  obtain ⟨hbounded, hfifo, hproducer, hconsumer⟩ := h
  unfold step
  dsimp only
  split
  · rename_i n hpc
    split
    · rename_i hle
      have hle : count.toNat ≤ n.toNat := BitVec.le_def.mp hle
      rw [hpc] at hproducer
      obtain ⟨hcached, hroom⟩ := hproducer
      have hused := XdpRing.used_submit hcached count (by omega)
      refine ⟨?_, ?_, trivial, hconsumer.of_eq rfl rfl ?_⟩
      · show (s.ring.submit count).used ≤ _
        omega
      · show _ = s.consumed ++ (s.ring.submit count).unconsumed
        rw [XdpRing.unconsumed_submit hcached (by omega), ← List.append_assoc, ← hfifo]
      · show _ ≤ (s.ring.submit count).used
        omega
    · exact ⟨hbounded, hfifo, hproducer, hconsumer⟩
  · exact ⟨hbounded, hfifo, hproducer, hconsumer⟩

theorem Inv.release (h : s.Inv) (count : BitVec 32) : (s.step (.release count)).Inv := by
  obtain ⟨hbounded, hfifo, hproducer, hconsumer⟩ := h
  unfold step
  dsimp only
  split
  · rename_i n hpc
    split
    · rename_i hle
      have hle : count.toNat ≤ n.toNat := BitVec.le_def.mp hle
      rw [hpc] at hconsumer
      obtain ⟨hcached, hseen⟩ := hconsumer
      have hused := XdpRing.used_release hcached count (by omega)
      refine ⟨?_, ?_, hproducer.of_eq rfl rfl ?_, trivial⟩
      · show (s.ring.release count).used ≤ _
        omega
      · show _ = s.consumed ++ _ ++ (s.ring.release count).unconsumed
        rw [hfifo, XdpRing.unconsumed_release hcached count (by omega),
          List.append_assoc]
      · show (s.ring.release count).used ≤ _
        omega
    · exact ⟨hbounded, hfifo, hproducer, hconsumer⟩
  · exact ⟨hbounded, hfifo, hproducer, hconsumer⟩

theorem Inv.step (h : s.Inv) (x : XdpStep α) : (s.step x).Inv := by
  cases x with
  | submit count => exact h.submit count
  | release count => exact h.release count
  | reserve count => exact (h.private (x := .reserve count) trivial).1
  | grant => exact (h.private (x := .grant) trivial).1
  | write idx v => exact (h.private (x := .write idx v) trivial).1
  | peek count => exact (h.private (x := .peek count) trivial).1
  | look => exact (h.private (x := .look) trivial).1

/-! ## The result -/

end XdpSession

end NeuStack
