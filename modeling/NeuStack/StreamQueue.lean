import NeuStack.StreamBuffer
import NeuStack.GuardedRun

/-! # The stream buffer as a byte queue

All operations of `StreamBuffer`, with the memory of the caller that they read or write, and
the copies they make.  Over every run of them the buffer is a bounded queue of bytes
(`refines_byte_queue`): each call answers what the queue answers (`ByteQueue.Allows`), and no
copy leaves the array or the memory of the caller.
-/
namespace NeuStack

namespace StreamBuffer

/-! ## The copies -/

/-- Of `write`. -/
def writeCopies (b : StreamBuffer) (len : Nat) : List Circular.Copy :=
  let toWrite := min len b.available
  if toWrite = 0 then [] else Circular.copies b.capacity b.writePos toWrite

/-- Of `peek`. -/
def peekCopies (b : StreamBuffer) (len : Nat) : List Circular.Copy :=
  let toRead := min len b.size
  if toRead = 0 then [] else Circular.copies b.capacity b.readPos toRead

/-- Of `peek_at`. -/
def peekAtCopies (b : StreamBuffer) (offset len : Nat) : List Circular.Copy :=
  if b.size ≤ offset then []
  else
    let toRead := min len (b.size - offset)
    Circular.copies b.capacity ((b.readPos + offset) % b.capacity) toRead

/-! ## The other operations -/

/-- `peek`: the number of bytes, and what is at `dest` then. -/
def peekInto (b : StreamBuffer) (dest : List UInt8) : Nat × List UInt8 :=
  (min dest.length b.size,
    (b.peekCopies dest.length).foldl (fun dest c => c.load b.buffer dest) dest)

/-- `peek_at` -/
def peekAtInto (b : StreamBuffer) (offset : Nat) (dest : List UInt8) : Nat × List UInt8 :=
  (if b.size ≤ offset then 0 else min dest.length (b.size - offset),
    (b.peekAtCopies offset dest.length).foldl (fun dest c => c.load b.buffer dest) dest)

/-- `read` -/
def readInto (b : StreamBuffer) (dest : List UInt8) : (Nat × List UInt8) × StreamBuffer :=
  let (bytesRead, dest) := b.peekInto dest
  ((bytesRead, dest), (b.consume bytesRead).2)

/-- A block of the array. -/
structure MutableSpan where
  data : Nat
  len : Nat

/-- `write_contiguous`; there is no block, if there is no room. -/
def writeContiguous (b : StreamBuffer) : MutableSpan :=
  if b.available = 0 then ⟨0, 0⟩
  else ⟨b.writePos, min b.available (b.capacity - b.writePos)⟩

/-- `commit_write` -/
def commitWrite (b : StreamBuffer) (len : Nat) : StreamBuffer :=
  let toCommit := min len b.available
  { buffer := b.buffer
    readPos := b.readPos
    writePos := (b.writePos + toCommit) % b.capacity
    size := b.size + toCommit
    size_le := by
      have hsize := b.size_le
      simp only [toCommit, available, capacity]
      omega
    readPos_lt := b.readPos_lt
    writePos_eq := by rw [b.writePos_eq, capacity, Nat.mod_add_mod, Nat.add_assoc] }

/-- `clear` -/
def clear (b : StreamBuffer) : StreamBuffer where
  buffer := b.buffer
  readPos := 0
  writePos := 0
  size := 0
  size_le := Nat.zero_le _
  readPos_lt := id
  writePos_eq := (Nat.zero_mod _).symm

theorem writeContiguous_within (b : StreamBuffer) :
    b.writeContiguous.data + b.writeContiguous.len ≤ b.capacity := by
  rw [writeContiguous]
  split
  · exact Nat.zero_le _
  · rename_i hroom
    rw [available, capacity] at hroom
    have hlt : b.writePos < b.capacity := b.writePos_lt (by omega)
    dsimp only
    omega

/-- The caller stores `data` to the block of `write_contiguous`, where it fits in. -/
def storeSpan (b : StreamBuffer) (data : List UInt8) : StreamBuffer :=
  if h : data.length ≤ b.writeContiguous.len then
    have hlen : (Circular.overwrite b.buffer b.writeContiguous.data data).length =
        b.buffer.length :=
      Circular.length_overwrite (by have := b.writeContiguous_within; rw [capacity] at this; omega)
    { buffer := Circular.overwrite b.buffer b.writeContiguous.data data
      readPos := b.readPos
      writePos := b.writePos
      size := b.size
      size_le := by rw [hlen]; exact b.size_le
      readPos_lt := by rw [hlen]; exact b.readPos_lt
      writePos_eq := by rw [hlen]; exact b.writePos_eq }
  else b

end StreamBuffer

/-! ## Calls -/

/-- The calls on a stream buffer, with the caller's memory. -/
inductive BufferCall
  | write (data : List UInt8)
  | read (dest : List UInt8)
  | peek (dest : List UInt8)
  | peekAt (offset : Nat) (dest : List UInt8)
  | consume (len : Nat)
  | peekContiguous
  /-- `write_contiguous`, storing `data` to the block, and `commit_write(len)`. -/
  | fill (data : List UInt8) (len : Nat)
  | clear

/-- What a call returns, and the caller's memory, or the block that is shown, after it. -/
structure BufferReply where
  returned : Nat := 0
  bytes : List UInt8 := []
  deriving DecidableEq

/-- The length of the caller's memory. -/
def BufferCall.len : BufferCall → Nat
  | .write data | .fill data _ => data.length
  | .read dest | .peek dest | .peekAt _ dest => dest.length
  | .consume _ | .peekContiguous | .clear => 0

namespace StreamBuffer

def call (b : StreamBuffer) : BufferCall → BufferReply × StreamBuffer
  | .write data => (⟨(b.write data).1, []⟩, (b.write data).2)
  | .read dest => (⟨(b.readInto dest).1.1, (b.readInto dest).1.2⟩, (b.readInto dest).2)
  | .peek dest => (⟨(b.peekInto dest).1, (b.peekInto dest).2⟩, b)
  | .peekAt offset dest => (⟨(b.peekAtInto offset dest).1, (b.peekAtInto offset dest).2⟩, b)
  | .consume len => (⟨(b.consume len).1, []⟩, (b.consume len).2)
  | .peekContiguous => (⟨min b.size (b.capacity - b.readPos), b.peekContiguous⟩, b)
  | .fill data len => ({}, (b.storeSpan data).commitWrite len)
  | .clear => ({}, b.clear)

def step (b : StreamBuffer) (x : BufferCall) : StreamBuffer := (b.call x).2

/-- What is committed was stored to the block. -/
def Permitted (b : StreamBuffer) : BufferCall → Prop
  | .fill data len => data.length ≤ b.writeContiguous.len ∧ len ≤ data.length
  | .write _ | .read _ | .peek _ | .peekAt _ _ | .consume _ | .peekContiguous | .clear => True

/-- The copies a call makes, or the caller makes for it. -/
def copies (b : StreamBuffer) : BufferCall → List Circular.Copy
  | .write data => b.writeCopies data.length
  | .read dest | .peek dest => b.peekCopies dest.length
  | .peekAt offset dest => b.peekAtCopies offset dest.length
  | .fill data _ => [⟨b.writeContiguous.data, 0, data.length⟩]
  | .consume _ | .peekContiguous | .clear => []

/-- The array, once the copies into it are made. -/
def stored (b : StreamBuffer) : BufferCall → List UInt8
  | .write data => (b.writeCopies data.length).foldl (fun buf c => c.store data buf) b.buffer
  | .fill data _ => Circular.Copy.store ⟨b.writeContiguous.data, 0, data.length⟩ data b.buffer
  | .read _ | .peek _ | .peekAt _ _ | .consume _ | .peekContiguous | .clear => b.buffer

/-- A call's copies lie in the array and in the caller's memory, and nothing else changes the
array. -/
structure CopiesWithin (b : StreamBuffer) (x : BufferCall) : Prop where
  within : ∀ c ∈ b.copies x, c.Within b.capacity x.len
  stored : (b.step x).buffer = b.stored x

/-- The calls of a run, with their replies. -/
def trace (b : StreamBuffer) : List BufferCall → List (BufferCall × BufferReply)
  | [] => []
  | x :: xs => (x, (b.call x).1) :: trace (b.step x) xs

end StreamBuffer

/-! ## The queue -/

namespace ByteQueue

/-- **A queue of at most `capacity` bytes**: what it may answer, and become. -/
def Allows (capacity : Nat) (q : List UInt8) :
    BufferCall → BufferReply → List UInt8 → Prop
  | .write data, r, q' => r = ⟨min data.length (capacity - q.length), []⟩ ∧
      q' = q ++ data.take (capacity - q.length)
  | .read dest, r, q' => r = ⟨min dest.length q.length,
      q.take dest.length ++ dest.drop q.length⟩ ∧ q' = q.drop dest.length
  | .peek dest, r, q' => r = ⟨min dest.length q.length,
      q.take dest.length ++ dest.drop q.length⟩ ∧ q' = q
  | .peekAt offset dest, r, q' => r = ⟨min dest.length (q.length - offset),
      (q.drop offset).take dest.length ++ dest.drop (q.length - offset)⟩ ∧ q' = q
  | .consume len, r, q' => r = ⟨min len q.length, []⟩ ∧ q' = q.drop len
  | .peekContiguous, r, q' => r.bytes <+: q ∧ (q ≠ [] → r.bytes ≠ []) ∧
      r.returned = r.bytes.length ∧ q' = q
  | .fill data len, r, q' => r = {} ∧ len ≤ capacity - q.length ∧ q' = q ++ data.take len
  | .clear, r, q' => r = {} ∧ q' = []

/-- A run of the queue. -/
inductive Run (capacity : Nat) :
    List UInt8 → List (BufferCall × BufferReply) → List UInt8 → Prop
  | nil (q : List UInt8) : Run capacity q [] q
  | cons {q q' q'' : List UInt8} {x : BufferCall} {r : BufferReply}
      {t : List (BufferCall × BufferReply)} (first : Allows capacity q x r q')
      (rest : Run capacity q' t q'') : Run capacity q ((x, r) :: t) q''

end ByteQueue

namespace StreamBuffer
variable {b : StreamBuffer} {capacity : Nat}

/-! ## What each operation does -/

theorem available_eq (b : StreamBuffer) : b.available = b.capacity - b.contents.length := by
  rw [length_contents]
  rfl

theorem write_returned (b : StreamBuffer) (data : List UInt8) :
    (b.write data).1 = min data.length b.available := by
  rw [write]
  dsimp only
  split
  · rename_i hzero
    exact hzero.symm
  · rfl

/-- `write` makes its copies. -/
theorem write_stores (b : StreamBuffer) (data : List UInt8) :
    (b.write data).2.buffer =
      (b.writeCopies data.length).foldl (fun buf c => c.store data buf) b.buffer := by
  rw [write, writeCopies]
  dsimp only
  split
  · rfl
  · exact (Circular.foldl_store (Nat.min_le_left ..)).symm

theorem drop_min_length (dest : List UInt8) (n : Nat) :
    dest.drop (min dest.length n) = dest.drop n := by
  rcases Nat.le_total dest.length n with h | h
  · rw [Nat.min_eq_left h, List.drop_length, List.drop_eq_nil_of_le h]
  · rw [Nat.min_eq_right h]

theorem peekInto_eq (b : StreamBuffer) (dest : List UInt8) :
    b.peekInto dest =
      (min dest.length b.size, b.contents.take dest.length ++ dest.drop b.size) := by
  have hsize := b.size_le
  rw [peekInto, peekCopies]
  refine congrArg _ ?_
  split
  · rename_i hzero
    have hnone : b.contents.take dest.length = [] := by
      rw [← List.length_eq_zero_iff, List.length_take, length_contents]
      exact hzero
    rw [hnone, ← drop_min_length, hzero]
    rfl
  · rename_i hsome
    have hpos := b.readPos_lt (by omega)
    rw [← drop_min_length dest b.size, contents, ← Circular.window_min]
    exact Circular.foldl_load hpos.le (by omega)

theorem peekAtInto_eq (b : StreamBuffer) (offset : Nat) (dest : List UInt8) :
    b.peekAtInto offset dest = (min dest.length (b.size - offset),
      (b.contents.drop offset).take dest.length ++ dest.drop (b.size - offset)) := by
  have hsize := b.size_le
  rw [peekAtInto, peekAtCopies]
  split
  · rename_i hbehind
    rw [List.drop_eq_nil_of_le (by rw [length_contents]; exact hbehind),
      Nat.sub_eq_zero_of_le hbehind, Nat.min_zero, List.take_nil]
    rfl
  · rename_i hinside
    have hcap : 0 < b.buffer.length := by omega
    refine congrArg _ ?_
    rw [← drop_min_length dest (b.size - offset), contents,
      Circular.drop_window (b.readPos_lt hcap) (by omega) hsize, ← Circular.window_min]
    exact Circular.foldl_load (Nat.mod_lt _ hcap).le (by omega)

theorem readInto_contents (b : StreamBuffer) (dest : List UInt8) :
    (b.readInto dest).2.contents = b.contents.drop dest.length := by
  rw [readInto, peekInto_eq]
  dsimp only
  rw [contents_consume, ← length_contents]
  rcases Nat.le_total dest.length b.contents.length with h | h
  · rw [Nat.min_eq_left h]
  · rw [Nat.min_eq_right h, List.drop_length, List.drop_eq_nil_of_le h]

theorem storeSpan_eq {data : List UInt8} (h : data.length ≤ b.writeContiguous.len) :
    (b.storeSpan data).buffer = Circular.overwrite b.buffer b.writeContiguous.data data ∧
      (b.storeSpan data).readPos = b.readPos ∧ (b.storeSpan data).size = b.size := by
  rw [storeSpan, dif_pos h]
  exact ⟨rfl, rfl, rfl⟩

theorem writeContiguous_le (b : StreamBuffer) : b.writeContiguous.len ≤ b.available := by
  rw [writeContiguous]
  split
  · exact Nat.zero_le _
  · exact Nat.min_le_left ..

/-- What is stored to the block extends the queue. -/
theorem window_storeSpan {data : List UInt8} (h : data.length ≤ b.writeContiguous.len) :
    Circular.window (Circular.overwrite b.buffer b.writeContiguous.data data) b.readPos
      (b.size + data.length) = b.contents ++ data := by
  have hwithin := b.writeContiguous_within
  have hle := b.writeContiguous_le
  have hsize := b.size_le
  have havailable : b.available = b.buffer.length - b.size := rfl
  by_cases hfull : b.available = 0
  · obtain rfl : data = [] := List.length_eq_zero_iff.mp (by omega)
    rw [Circular.overwrite_nil, List.append_nil]
    rfl
  · have hcap : 0 < b.buffer.length := by omega
    have hspan : b.writeContiguous.data = b.writePos := by rw [writeContiguous, if_neg hfull]
    rw [hspan, capacity] at hwithin
    rw [hspan, ← Circular.wrapWrite_eq_overwrite (by omega), b.writePos_eq]
    exact Circular.window_wrapWrite (b.readPos_lt hcap) (by omega)

/-- Storing to the block and committing is writing what was committed. -/
theorem contents_fill {data : List UInt8} {len : Nat}
    (hdata : data.length ≤ b.writeContiguous.len) (hlen : len ≤ data.length) :
    ((b.storeSpan data).commitWrite len).contents = b.contents ++ data.take len := by
  have hle := b.writeContiguous_le
  have hsize := b.size_le
  have hwithin := b.writeContiguous_within
  obtain ⟨hbuffer, hreadPos, hstored⟩ := storeSpan_eq hdata
  have hlength : (b.storeSpan data).buffer.length = b.buffer.length := by
    rw [hbuffer, Circular.length_overwrite]
    rw [capacity] at hwithin
    omega
  have hcommit : min len (b.storeSpan data).available = len := by
    rw [available, capacity, hlength, hstored]
    rw [available, capacity] at hle
    omega
  have hfront : b.size + len = min (b.size + len) (b.size + data.length) := by omega
  calc ((b.storeSpan data).commitWrite len).contents
      = Circular.window (b.storeSpan data).buffer (b.storeSpan data).readPos
          ((b.storeSpan data).size + min len (b.storeSpan data).available) := rfl
    _ = (b.contents ++ data).take (b.size + len) := by
        rw [hcommit, hbuffer, hreadPos, hstored, hfront, Circular.window_min,
          window_storeSpan hdata, ← hfront]
    _ = b.contents ++ data.take len := by
        rw [← b.length_contents, List.take_length_add_append]

/-! ## The run -/

theorem capacity_step (b : StreamBuffer) (x : BufferCall) : (b.step x).capacity = b.capacity := by
  cases x with
  | write data => exact b.capacity_write data
  | read dest => rfl
  | peek dest => rfl
  | peekAt offset dest => rfl
  | consume len => rfl
  | peekContiguous => rfl
  | fill data len =>
    show (b.storeSpan data).buffer.length = _
    rw [storeSpan]
    split
    · refine Circular.length_overwrite ?_
      have hwithin := b.writeContiguous_within
      rw [capacity] at hwithin
      omega
    · rfl
  | clear => rfl

/-- **Each call is one of the queue.** -/
theorem call_allows (b : StreamBuffer) {x : BufferCall} (hx : b.Permitted x) :
    ByteQueue.Allows b.capacity b.contents x (b.call x).1 (b.step x).contents := by
  cases x with
  | write data =>
    refine ⟨?_, ?_⟩
    · rw [← available_eq, ← write_returned]
      rfl
    · rw [← available_eq]
      exact b.contents_write data
  | read dest =>
    refine ⟨?_, b.readInto_contents dest⟩
    show BufferReply.mk (b.peekInto dest).1 (b.peekInto dest).2 = _
    rw [peekInto_eq, length_contents]
  | peek dest =>
    refine ⟨?_, rfl⟩
    show BufferReply.mk (b.peekInto dest).1 (b.peekInto dest).2 = _
    rw [peekInto_eq, length_contents]
  | peekAt offset dest =>
    refine ⟨?_, rfl⟩
    show BufferReply.mk (b.peekAtInto offset dest).1 (b.peekAtInto offset dest).2 = _
    rw [peekAtInto_eq, length_contents]
  | consume len =>
    refine ⟨?_, b.contents_consume len⟩
    rw [length_contents]
    rfl
  | peekContiguous =>
    refine ⟨?_, fun hsome => ?_, ?_, rfl⟩
    · show b.peekContiguous <+: _
      rw [peekContiguous_eq]
      exact List.take_prefix ..
    · have hempty : b.empty = false :=
        Bool.eq_false_iff.mpr fun h => hsome (b.empty_iff.mp h)
      exact List.ne_nil_of_length_pos (b.peekContiguous_pos hempty)
    · show min b.size (b.capacity - b.readPos) = b.peekContiguous.length
      rw [peekContiguous_eq, List.length_take, length_contents,
        Nat.min_eq_left (Nat.min_le_left ..)]
  | fill data len =>
    obtain ⟨hdata, hlen⟩ := hx
    refine ⟨rfl, ?_, contents_fill hdata hlen⟩
    rw [← available_eq]
    exact hlen.trans (hdata.trans b.writeContiguous_le)
  | clear => exact ⟨rfl, Circular.window_zero ..⟩

theorem peekCopies_within (b : StreamBuffer) (len : Nat) :
    ∀ c ∈ b.peekCopies len, c.Within b.capacity len := by
  have hsize := b.size_le
  rw [peekCopies]
  split
  · exact fun c hc => nomatch hc
  · rename_i hsome
    have hpos := b.readPos_lt (by omega)
    exact Circular.copies_within hpos.le (by rw [capacity]; omega) (Nat.min_le_left ..)

theorem copies_within (b : StreamBuffer) {x : BufferCall} (hx : b.Permitted x) :
    ∀ c ∈ b.copies x, c.Within b.capacity x.len := by
  have hsize := b.size_le
  cases x with
  | write data =>
    show ∀ c ∈ b.writeCopies data.length, _
    rw [writeCopies]
    split
    · exact fun c hc => nomatch hc
    · rename_i hsome
      rw [available, capacity] at hsome
      have hpos := b.writePos_lt (by omega)
      exact Circular.copies_within hpos.le (by rw [available]; omega) (Nat.min_le_left ..)
  | read dest => exact b.peekCopies_within dest.length
  | peek dest => exact b.peekCopies_within dest.length
  | peekAt offset dest =>
    show ∀ c ∈ b.peekAtCopies offset dest.length, _
    rw [peekAtCopies]
    split
    · exact fun c hc => nomatch hc
    · have hlt : (b.readPos + offset) % b.capacity < b.capacity :=
        Nat.mod_lt _ (by rw [capacity]; omega)
      exact Circular.copies_within hlt.le (by rw [capacity]; omega) (Nat.min_le_left ..)
  | fill data len =>
    intro c hc
    obtain rfl := List.mem_singleton.mp hc
    have hwithin := b.writeContiguous_within
    have hdata := hx.1
    exact ⟨by dsimp only; omega, by rw [Nat.zero_add]; exact le_rfl⟩
  | consume len => exact fun c hc => nomatch hc
  | peekContiguous => exact fun c hc => nomatch hc
  | clear => exact fun c hc => nomatch hc

theorem call_copies (b : StreamBuffer) {x : BufferCall} (hx : b.Permitted x) :
    b.CopiesWithin x := by
  refine ⟨b.copies_within hx, ?_⟩
  cases x with
  | write data => exact b.write_stores data
  | fill data len =>
    show (b.storeSpan data).buffer = Circular.overwrite _ _ ((data.drop 0).take data.length)
    rw [(storeSpan_eq hx.1).1, List.drop_zero, List.take_length]
  | read dest => rfl
  | peek dest => rfl
  | peekAt offset dest => rfl
  | consume len => rfl
  | peekContiguous => rfl
  | clear => rfl

theorem run_capacity (b : StreamBuffer) (xs : List BufferCall) :
    (GuardedRun.run step b xs).capacity = b.capacity :=
  GuardedRun.run_invariant (P := fun c => capacity c = b.capacity)
    (fun c x h => (c.capacity_step x).trans h) rfl xs

theorem run_queue {b : StreamBuffer} {xs : List BufferCall}
    (h : GuardedRun.Meets step Permitted b xs) :
    ByteQueue.Run b.capacity b.contents (b.trace xs) (GuardedRun.run step b xs).contents := by
  induction xs generalizing b with
  | nil => exact .nil _
  | cons x xs ih =>
    obtain ⟨hx, hrest⟩ := h
    have hnext := ih hrest
    rw [capacity_step] at hnext
    exact .cons (b.call_allows hx) hnext

/-- **The stream buffer is a bounded queue of bytes**: every run of its calls, with what they
reply, is one of the queue, and ends with the contents of the queue; no copy leaves the array
or the caller's memory; and the positions stay inside. -/
theorem refines_byte_queue (capacity : Nat) (hcap : 0 < capacity) (xs : List BufferCall)
    (h : GuardedRun.Meets step Permitted (ofCapacity capacity) xs) :
    let b := GuardedRun.run step (ofCapacity capacity) xs
    ByteQueue.Run capacity [] ((ofCapacity capacity).trace xs) b.contents ∧
      GuardedRun.Meets step CopiesWithin (ofCapacity capacity) xs ∧
      b.capacity = capacity ∧ b.size ≤ capacity ∧ b.readPos < capacity ∧
        b.writePos < capacity := by
  intro b
  have hsame : (ofCapacity capacity).capacity = capacity := List.length_replicate
  have hlength : b.buffer.length = capacity := (run_capacity _ xs).trans hsame
  have hqueue := run_queue h
  rw [hsame, contents_ofCapacity] at hqueue
  have hcopies : GuardedRun.Meets step CopiesWithin (ofCapacity capacity) xs :=
    h.imp (P := fun _ => True) (fun b x _ hx => ⟨trivial, b.call_copies hx⟩) trivial
  have hpos : 0 < b.buffer.length := hlength ▸ hcap
  exact ⟨hqueue, hcopies, hlength, hlength ▸ b.size_le, hlength ▸ b.readPos_lt hpos,
    hlength ▸ b.writePos_lt hpos⟩

instance (b : StreamBuffer) (x : BufferCall) : Decidable (b.Permitted x) :=
  match x with
  | .fill data len =>
    inferInstanceAs (Decidable (data.length ≤ b.writeContiguous.len ∧ len ≤ data.length))
  | .write _ | .read _ | .peek _ | .peekAt _ _ | .consume _ | .peekContiguous | .clear =>
    .isTrue trivial

/-- Four slots: two bytes are filled in at the end of the array, and one more is written to its
front. -/
theorem refines_byte_queue_small :
    let xs : List BufferCall :=
      [.write [1, 2, 3], .consume 2, .fill [4] 1, .write [5, 6, 7], .peekAt 1 [0, 0],
        .peekContiguous]
    ByteQueue.Run 4 [] ((ofCapacity 4).trace xs) [3, 4, 5, 6] ∧
      (GuardedRun.run step (ofCapacity 4) xs).writePos < 4 := by
  intro xs
  obtain ⟨hqueue, -, -, -, -, hpos⟩ := refines_byte_queue 4 (by decide) xs (by decide)
  exact ⟨hqueue, hpos⟩

end StreamBuffer
end NeuStack
