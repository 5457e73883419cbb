import NeuStack.Circular

/-! # The stream buffer

`StreamBuffer` of `ring_buffer.hpp`: a byte queue in a circular array.  The
representation invariant is part of the structure, so it need not be carried
along: the size fits the array, the read position is a slot, and the write
position lies `size` slots behind it.  The capacity is the length of the array,
which no operation changes.

`contents` is the queue the buffer stands for.  Each operation is given once
more on it (`contents_write`, `peekContiguous_eq`, `contents_consume`, and
`peek_eq`), and the connection's proofs use only these.
-/
namespace NeuStack

structure StreamBuffer where
  buffer : List UInt8
  readPos : Nat
  writePos : Nat
  size : Nat
  size_le : size ≤ buffer.length
  readPos_lt : 0 < buffer.length → readPos < buffer.length
  writePos_eq : writePos = (readPos + size) % buffer.length

namespace StreamBuffer

/-- `StreamBuffer(capacity)`. -/
def ofCapacity (capacity : Nat) : StreamBuffer where
  buffer := List.replicate capacity 0
  readPos := 0
  writePos := 0
  size := 0
  size_le := Nat.zero_le _
  readPos_lt := id
  writePos_eq := (Nat.zero_mod _).symm

def capacity (b : StreamBuffer) : Nat := b.buffer.length

def available (b : StreamBuffer) : Nat := b.capacity - b.size

def empty (b : StreamBuffer) : Bool := b.size == 0

/-- The bytes in the buffer, oldest first. -/
def contents (b : StreamBuffer) : List UInt8 := Circular.window b.buffer b.readPos b.size

theorem writePos_lt (b : StreamBuffer) (h : 0 < b.buffer.length) :
    b.writePos < b.buffer.length := by
  rw [b.writePos_eq]
  exact Nat.mod_lt _ h

/-- `write`: append the first `min(len, available())` bytes; the count is returned. -/
def write (b : StreamBuffer) (data : List UInt8) : Nat × StreamBuffer :=
  let toWrite := min data.length b.available
  if h : toWrite = 0 then (0, b) else
  have hfit : b.size + toWrite ≤ b.buffer.length := by
    have := b.size_le
    simp only [toWrite, available, capacity]
    omega
  have hcap : 0 < b.buffer.length := by omega
  have hlen : (Circular.wrapWrite b.buffer b.writePos (data.take toWrite)).length
      = b.buffer.length :=
    Circular.length_wrapWrite (Nat.le_of_lt (b.writePos_lt hcap)) (by
      rw [List.length_take]
      omega)
  (toWrite,
    { buffer := Circular.wrapWrite b.buffer b.writePos (data.take toWrite)
      readPos := b.readPos
      writePos := (b.writePos + toWrite) % b.capacity
      size := b.size + toWrite
      size_le := by rw [hlen]; exact hfit
      readPos_lt := by rw [hlen]; exact b.readPos_lt
      writePos_eq := by
        rw [hlen, b.writePos_eq, capacity, Nat.mod_add_mod, Nat.add_assoc] })

/-- `peek`: up to `len` bytes from the front, left in place. -/
def peek (b : StreamBuffer) (len : Nat) : List UInt8 :=
  let toRead := min len b.size
  let first := min toRead (b.capacity - b.readPos)
  (b.buffer.drop b.readPos).take first ++ b.buffer.take (toRead - first)

/-- `peek_contiguous`: the first block of bytes that lies in one piece. -/
def peekContiguous (b : StreamBuffer) : List UInt8 :=
  (b.buffer.drop b.readPos).take (min b.size (b.capacity - b.readPos))

/-- `consume`: drop up to `len` bytes from the front; the count is returned. -/
def consume (b : StreamBuffer) (len : Nat) : Nat × StreamBuffer :=
  let toConsume := min len b.size
  (toConsume,
    { buffer := b.buffer
      readPos := (b.readPos + toConsume) % b.capacity
      writePos := b.writePos
      size := b.size - toConsume
      size_le := Nat.le_trans (Nat.sub_le _ _) b.size_le
      readPos_lt := fun h => Nat.mod_lt _ h
      writePos_eq := by
        rw [capacity, Nat.mod_add_mod, b.writePos_eq, Nat.add_assoc,
          Nat.add_sub_cancel' (Nat.min_le_right _ _)] })

/-! ## The operations on the queue -/

@[simp] theorem length_contents (b : StreamBuffer) : b.contents.length = b.size :=
  Circular.length_window b.size_le

theorem empty_iff (b : StreamBuffer) : b.empty = true ↔ b.contents = [] := by
  rw [empty, beq_iff_eq, ← List.length_eq_zero_iff, length_contents]

@[simp] theorem contents_ofCapacity (n : Nat) : (ofCapacity n).contents = [] :=
  Circular.window_zero _ _

@[simp] theorem capacity_write (b : StreamBuffer) (data : List UInt8) :
    (b.write data).2.capacity = b.capacity := by
  unfold write
  dsimp only
  split
  · rfl
  · rename_i h
    have hsize := b.size_le
    have hcap : 0 < b.buffer.length := by
      simp only [available, capacity] at h
      omega
    exact Circular.length_wrapWrite (Nat.le_of_lt (b.writePos_lt hcap)) (by
      simp only [List.length_take, available, capacity]
      omega)

@[simp] theorem capacity_consume (b : StreamBuffer) (n : Nat) :
    (b.consume n).2.capacity = b.capacity := rfl

theorem contents_write (b : StreamBuffer) (data : List UInt8) :
    (b.write data).2.contents = b.contents ++ data.take b.available := by
  unfold write
  dsimp only
  have hsize := b.size_le
  split
  · rename_i h
    have hnil : data.take b.available = [] := by
      rw [← List.length_eq_zero_iff, List.length_take, Nat.min_comm]
      exact h
    rw [hnil, List.append_nil]
  · rename_i h
    have hcap : 0 < b.buffer.length := by
      simp only [available, capacity] at h
      omega
    have htake : data.take (min data.length b.available) = data.take b.available := by
      rw [Nat.min_comm, ← List.take_take, List.take_length]
    simp only [contents]
    rw [b.writePos_eq, htake]
    have hlen : (data.take b.available).length = min data.length b.available := by
      rw [List.length_take, Nat.min_comm]
    rw [← hlen]
    exact Circular.window_wrapWrite (b.readPos_lt hcap) (by
      rw [hlen]
      simp only [available, capacity]
      omega)

theorem contents_consume (b : StreamBuffer) (n : Nat) :
    (b.consume n).2.contents = b.contents.drop n := by
  have hsize := b.size_le
  rcases Nat.eq_zero_or_pos b.buffer.length with hcap | hcap
  · have hzero : b.size = 0 := by omega
    have hnil : b.contents = [] := by rw [← List.length_eq_zero_iff, length_contents, hzero]
    rw [hnil, List.drop_nil, ← List.length_eq_zero_iff, length_contents]
    simp only [consume, hzero]
    omega
  · have hmin : b.contents.drop n = b.contents.drop (min n b.size) := by
      rcases Nat.le_total n b.size with h | h
      · rw [Nat.min_eq_left h]
      · rw [Nat.min_eq_right h, List.drop_eq_nil_of_le (by rw [length_contents]; exact h),
          List.drop_eq_nil_of_le (Nat.le_of_eq b.length_contents)]
    rw [hmin]
    exact (Circular.drop_window (b.readPos_lt hcap) (Nat.min_le_right _ _) b.size_le).symm

theorem size_consume (b : StreamBuffer) (n : Nat) : (b.consume n).2.size = b.size - n := by
  rw [← length_contents, contents_consume, List.length_drop, length_contents]

/-- The contiguous block is a prefix of the queue. -/
theorem peekContiguous_eq (b : StreamBuffer) :
    b.peekContiguous = b.contents.take (min b.size (b.capacity - b.readPos)) := by
  have hsize := b.size_le
  rcases Nat.eq_zero_or_pos b.buffer.length with hcap | hcap
  · have hzero : b.size = 0 := by omega
    simp [peekContiguous, hzero]
  · have hread := b.readPos_lt hcap
    exact (Circular.take_window (Nat.min_le_left _ _) (by simp only [capacity]; omega)).symm

/-- While there are bytes, the contiguous block has some. -/
theorem peekContiguous_pos (b : StreamBuffer) (h : b.empty = false) :
    0 < b.peekContiguous.length := by
  have hsize := b.size_le
  have hpos : 0 < b.size := by
    simp only [empty, beq_eq_false_iff_ne] at h
    omega
  have hread := b.readPos_lt (by omega)
  rw [peekContiguous_eq, List.length_take, length_contents, capacity]
  omega

theorem peek_eq (b : StreamBuffer) (n : Nat) : b.peek n = b.contents.take n := by
  have hsize := b.size_le
  rcases Nat.eq_zero_or_pos b.buffer.length with hcap | hcap
  · have hzero : b.size = 0 := by omega
    have hnil : b.contents = [] := by rw [← List.length_eq_zero_iff, length_contents, hzero]
    simp [peek, hzero, hnil]
  · have hread := b.readPos_lt hcap
    simp only [peek, contents, Circular.window, capacity]
    rw [List.take_take, List.take_append, List.length_drop]
    congr 1
    · rcases Nat.le_total (min n b.size) (b.buffer.length - b.readPos) with h | h
      · rw [Nat.min_eq_left h]
      · rw [Nat.min_eq_right h, List.take_of_length_le (Nat.le_of_eq List.length_drop),
          List.take_of_length_le (by rw [List.length_drop]; omega)]
    · rw [List.take_take]
      congr 1
      omega

end StreamBuffer

end NeuStack
