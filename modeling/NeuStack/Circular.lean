import Mathlib.Data.List.Rotate

/-! # Circular arrays

A list read as an array whose last slot is followed by its first.  `overwrite`
copies a block into place, `window` reads a block that may run over the end,
and `wrapWrite` writes one, in the two copies such code makes: up to the end of
the array, and the rest at its front.

`window_wrapWrite` is the law a queue in a circular array rests on: writing
behind a window extends the window by what was written, provided both fit.
`rotate_set` is the law of an array whose oldest slot is overwritten.

The two copies themselves, and where they start and end, are `copies`; making them is what
reads a window (`foldl_load`) or writes one (`foldl_store`).
-/
namespace Circular
variable {α : Type}

/-- `buf` with the block at `pos` replaced by `xs`. -/
def overwrite (buf : List α) (pos : Nat) (xs : List α) : List α :=
  buf.take pos ++ xs ++ buf.drop (pos + xs.length)

/-- The `n` elements from `pos` on, continuing at the front after the last slot. -/
def window (buf : List α) (pos n : Nat) : List α :=
  (buf.drop pos ++ buf.take pos).take n

/-- Write `xs` at `pos`, continuing at the front after the last slot. -/
def wrapWrite (buf : List α) (pos : Nat) (xs : List α) : List α :=
  let first := min xs.length (buf.length - pos)
  overwrite (overwrite buf pos (xs.take first)) 0 (xs.drop first)

theorem length_overwrite {buf : List α} {pos : Nat} {xs : List α}
    (h : pos + xs.length ≤ buf.length) : (overwrite buf pos xs).length = buf.length := by
  simp only [overwrite, List.length_append, List.length_take, List.length_drop]
  omega

theorem getElem?_overwrite {buf : List α} {pos : Nat} {xs : List α}
    (h : pos + xs.length ≤ buf.length) (i : Nat) :
    (overwrite buf pos xs)[i]? =
      if pos ≤ i ∧ i < pos + xs.length then xs[i - pos]? else buf[i]? := by
  have htake : (buf.take pos).length = pos := by rw [List.length_take]; omega
  rw [overwrite, List.append_assoc]
  rcases Nat.lt_or_ge i pos with hlt | hge
  · rw [List.getElem?_append_left (by omega), List.getElem?_take_of_lt hlt, if_neg (by omega)]
  · rw [List.getElem?_append_right (by omega), htake]
    rcases Nat.lt_or_ge (i - pos) xs.length with hin | hout
    · rw [List.getElem?_append_left hin, if_pos (by omega)]
    · rw [List.getElem?_append_right hout, List.getElem?_drop, if_neg (by omega)]
      congr 1
      omega

theorem length_window {buf : List α} {pos n : Nat} (hn : n ≤ buf.length) :
    (window buf pos n).length = n := by
  simp only [window, List.length_take, List.length_append, List.length_drop]
  omega

theorem window_zero (buf : List α) (pos : Nat) : window buf pos 0 = [] := by
  simp [window]

theorem getElem?_window {buf : List α} {pos n i : Nat} (hpos : pos < buf.length) (hi : i < n)
    (hn : n ≤ buf.length) : (window buf pos n)[i]? = buf[(pos + i) % buf.length]? := by
  rw [window, List.getElem?_take_of_lt hi]
  rcases Nat.lt_or_ge (pos + i) buf.length with hlt | hge
  · rw [List.getElem?_append_left (by rw [List.length_drop]; omega), List.getElem?_drop,
      Nat.mod_eq_of_lt hlt]
  · rw [List.getElem?_append_right (by rw [List.length_drop]; omega), List.length_drop,
      List.getElem?_take_of_lt (by omega), Nat.mod_eq_sub_mod hge, Nat.mod_eq_of_lt (by omega)]
    congr 1
    omega

/-- Dropping from the front of a window moves its start. -/
theorem drop_window {buf : List α} {pos n k : Nat} (hpos : pos < buf.length) (hk : k ≤ n)
    (hn : n ≤ buf.length) :
    (window buf pos n).drop k = window buf ((pos + k) % buf.length) (n - k) := by
  apply List.ext_getElem?
  intro i
  rw [List.getElem?_drop]
  rcases Nat.lt_or_ge i (n - k) with hi | hi
  · rw [getElem?_window hpos (by omega) hn,
      getElem?_window (Nat.mod_lt _ (by omega)) hi (by omega), Nat.mod_add_mod, Nat.add_assoc]
  · rw [List.getElem?_eq_none (by rw [length_window hn]; omega),
      List.getElem?_eq_none (by rw [length_window (by omega)]; omega)]

/-- The part of a window that does not run over the end is a block of the array. -/
theorem take_window {buf : List α} {pos n k : Nat} (hk : k ≤ n) (hend : pos + k ≤ buf.length) :
    (window buf pos n).take k = (buf.drop pos).take k := by
  rw [window, List.take_take, Nat.min_eq_left hk,
    List.take_append_of_le_length (by rw [List.length_drop]; omega)]

/-- A shorter window is the front of a longer one. -/
theorem window_min (buf : List α) (pos m n : Nat) :
    window buf pos (min m n) = (window buf pos n).take m := by
  rw [window, window, List.take_take]

theorem length_wrapWrite {buf : List α} {pos : Nat} {xs : List α} (hpos : pos ≤ buf.length)
    (hxs : xs.length ≤ buf.length) : (wrapWrite buf pos xs).length = buf.length := by
  have hfirst : (overwrite buf pos (xs.take (min xs.length (buf.length - pos)))).length
      = buf.length := length_overwrite (by rw [List.length_take]; omega)
  rw [wrapWrite, length_overwrite, hfirst]
  rw [hfirst, List.length_drop]
  omega

theorem getElem?_wrapWrite {buf : List α} {pos : Nat} {xs : List α} (hpos : pos < buf.length)
    (hxs : xs.length ≤ buf.length) {i : Nat} (hi : i < buf.length) :
    (wrapWrite buf pos xs)[i]? =
      if pos ≤ i ∧ i < pos + xs.length then xs[i - pos]?
      else if i + buf.length < pos + xs.length then xs[i + buf.length - pos]? else buf[i]? := by
  have hfirst : (overwrite buf pos (xs.take (min xs.length (buf.length - pos)))).length
      = buf.length := length_overwrite (by rw [List.length_take]; omega)
  rw [wrapWrite, getElem?_overwrite (by rw [hfirst, List.length_drop]; omega),
    getElem?_overwrite (by rw [List.length_take]; omega), List.length_drop, List.length_take]
  by_cases hwrap : i + buf.length < pos + xs.length
  · rw [if_pos (by omega), if_neg (by omega), if_pos hwrap, List.getElem?_drop]
    congr 1
    omega
  · rw [if_neg (by omega)]
    by_cases hin : pos ≤ i ∧ i < pos + xs.length
    · rw [if_pos (by omega), if_pos hin, List.getElem?_take_of_lt (by omega)]
    · rw [if_neg (by omega), if_neg hin, if_neg hwrap]

/-- **Writing behind a window extends it.** -/
theorem window_wrapWrite {buf : List α} {pos n : Nat} {xs : List α} (hpos : pos < buf.length)
    (hfit : n + xs.length ≤ buf.length) :
    window (wrapWrite buf ((pos + n) % buf.length) xs) pos (n + xs.length)
      = window buf pos n ++ xs := by
  have hend : (pos + n) % buf.length < buf.length := Nat.mod_lt _ (by omega)
  have hlen : (wrapWrite buf ((pos + n) % buf.length) xs).length = buf.length :=
    length_wrapWrite (Nat.le_of_lt hend) (by omega)
  apply List.ext_getElem?
  intro i
  rcases Nat.lt_or_ge i (n + xs.length) with hi | hi
  · rw [getElem?_window (by omega) hi (by omega), hlen,
      getElem?_wrapWrite hend (by omega) (Nat.mod_lt _ (by omega))]
    rcases Nat.lt_or_ge i n with hin | hin
    · -- inside the old window: none of the two copies reaches the slot
      rw [List.getElem?_append_left (by rw [length_window (by omega)]; exact hin),
        getElem?_window hpos hin (by omega)]
      rcases Nat.lt_or_ge (pos + n) buf.length with h1 | h1 <;>
      rcases Nat.lt_or_ge (pos + i) buf.length with h2 | h2
      · rw [Nat.mod_eq_of_lt h1, Nat.mod_eq_of_lt h2, if_neg (by omega), if_neg (by omega)]
      · omega
      · rw [Nat.mod_eq_sub_mod h1, Nat.mod_eq_of_lt (by omega : pos + n - buf.length < _),
          Nat.mod_eq_of_lt h2, if_neg (by omega), if_neg (by omega)]
      · rw [Nat.mod_eq_sub_mod h1, Nat.mod_eq_of_lt (by omega : pos + n - buf.length < _),
          Nat.mod_eq_sub_mod h2, Nat.mod_eq_of_lt (by omega : pos + i - buf.length < _),
          if_neg (by omega), if_neg (by omega)]
    · -- behind it: the slot holds the element written there
      rw [List.getElem?_append_right (by rw [length_window (by omega)]; exact hin),
        length_window (by omega)]
      rcases Nat.lt_or_ge (pos + n) buf.length with h1 | h1 <;>
      rcases Nat.lt_or_ge (pos + i) buf.length with h2 | h2
      · rw [Nat.mod_eq_of_lt h1, Nat.mod_eq_of_lt h2, if_pos (by omega)]
        congr 1
        omega
      · rw [Nat.mod_eq_of_lt h1, Nat.mod_eq_sub_mod h2,
          Nat.mod_eq_of_lt (by omega : pos + i - buf.length < _), if_neg (by omega),
          if_pos (by omega)]
        congr 1
        omega
      · omega
      · rw [Nat.mod_eq_sub_mod h1, Nat.mod_eq_of_lt (by omega : pos + n - buf.length < _),
          Nat.mod_eq_sub_mod h2, Nat.mod_eq_of_lt (by omega : pos + i - buf.length < _),
          if_pos (by omega)]
        congr 1
        omega
  · rw [List.getElem?_eq_none (by rw [length_window (by omega)]; omega),
      List.getElem?_eq_none (by rw [List.length_append, length_window (by omega)]; omega)]

/-- Overwriting the slot at which a full array starts, and starting one later. -/
theorem rotate_set {buf : List α} {pos : Nat} (hpos : pos < buf.length) (x : α) :
    (buf.set pos x).rotate ((pos + 1) % buf.length) = (buf.rotate pos).tail ++ [x] := by
  have hlength : (buf.set pos x).length = buf.length := List.length_set
  rw [← hlength, List.rotate_mod, List.rotate_eq_drop_append_take (by rw [hlength]; exact hpos),
    List.rotate_eq_drop_append_take (Nat.le_of_lt hpos), List.drop_set_of_lt (Nat.lt_succ_self _),
    List.drop_eq_getElem_cons hpos, List.cons_append, List.tail_cons, List.append_assoc,
    List.take_succ_eq_append_getElem (by rw [hlength]; exact hpos), List.take_set_of_le le_rfl,
    List.getElem_set_self]

/-! ## Copies -/

/-- A block copied between an array and memory outside of it. -/
structure Copy where
  /-- Where the block starts in the array. -/
  slot : Nat
  /-- Where it starts outside. -/
  offset : Nat
  len : Nat

namespace Copy

/-- Out of the array `buf`, into `dest`. -/
def load (c : Copy) (buf dest : List α) : List α :=
  overwrite dest c.offset ((buf.drop c.slot).take c.len)

/-- From `data` into the array `buf`. -/
def store (c : Copy) (data buf : List α) : List α :=
  overwrite buf c.slot ((data.drop c.offset).take c.len)

/-- The block lies in an array of `capacity` slots, and in the first `len` elements outside. -/
structure Within (c : Copy) (capacity len : Nat) : Prop where
  array : c.slot + c.len ≤ capacity
  outside : c.offset + c.len ≤ len

end Copy

/-- The copies of `n` elements from the slot `pos` on: up to the end of the array, and the rest
at its front. -/
def copies (capacity pos n : Nat) : List Copy :=
  let first := min n (capacity - pos)
  ⟨pos, 0, first⟩ :: if first < n then [⟨0, first, n - first⟩] else []

theorem copies_within {capacity pos n len : Nat} (hpos : pos ≤ capacity) (hn : n ≤ capacity)
    (hlen : n ≤ len) : ∀ c ∈ copies capacity pos n, c.Within capacity len := by
  intro c hc
  obtain rfl | hc := List.mem_cons.mp hc
  · exact ⟨by dsimp only; omega, by dsimp only; omega⟩
  · split at hc
    · rw [List.mem_singleton.mp hc]
      exact ⟨by dsimp only; omega, by dsimp only; omega⟩
    · cases hc

theorem overwrite_nil (buf : List α) (pos : Nat) : overwrite buf pos [] = buf := by
  rw [overwrite, List.append_nil]
  exact List.take_append_drop pos buf

/-- **Loading** reads a window. -/
theorem foldl_load {buf dest : List α} {pos n : Nat} (hpos : pos ≤ buf.length)
    (hn : n ≤ buf.length) :
    (copies buf.length pos n).foldl (fun dest c => c.load buf dest) dest =
      window buf pos n ++ dest.drop n := by
  rw [copies, List.foldl_cons, Copy.load, overwrite, List.take_zero, List.nil_append]
  dsimp only
  split
  · rename_i hwrap
    have hfirst : min n (buf.length - pos) = buf.length - pos := by omega
    have hblock : ((buf.drop pos).take (buf.length - pos)) = buf.drop pos :=
      List.take_of_length_le (Nat.le_of_eq List.length_drop)
    have hlength : (buf.drop pos).length = buf.length - pos := List.length_drop
    have hrest : (buf.take (n - (buf.length - pos))).length = n - (buf.length - pos) :=
      List.length_take_of_le (by omega)
    have hend : buf.length - pos + (n - (buf.length - pos)) = n := by omega
    have hwindow : window buf pos n = buf.drop pos ++ buf.take (n - (buf.length - pos)) := by
      rw [window, List.take_append, hlength, List.take_of_length_le (by omega), List.take_take,
        Nat.min_eq_left (by omega)]
    have hbehind : (buf.drop pos ++ dest.drop (buf.length - pos)).drop n = dest.drop n := by
      rw [← hend, ← List.drop_drop, List.drop_left' hlength, List.drop_drop]
    rw [hfirst, hblock, List.foldl_cons, List.foldl_nil, Copy.load, overwrite]
    dsimp only
    rw [List.drop_zero, hrest, hend, hlength, Nat.zero_add, List.take_left' hlength, hbehind,
      hwindow]
  · rename_i hwhole
    have hfirst : min n (buf.length - pos) = n := by omega
    have hlength : ((buf.drop pos).take n).length = n := by
      rw [List.length_take, List.length_drop]
      omega
    rw [hfirst, List.foldl_nil, hlength, Nat.zero_add, window,
      List.take_append_of_le_length (by rw [List.length_drop]; omega)]

/-- A block that does not run over the end. -/
theorem wrapWrite_eq_overwrite {buf : List α} {pos : Nat} {xs : List α}
    (h : pos + xs.length ≤ buf.length) : wrapWrite buf pos xs = overwrite buf pos xs := by
  have hfirst : min xs.length (buf.length - pos) = xs.length := by omega
  rw [wrapWrite, hfirst, List.take_length, List.drop_length, overwrite_nil]

/-- **Storing** writes one. -/
theorem foldl_store {buf data : List α} {pos n : Nat} (hn : n ≤ data.length) :
    (copies buf.length pos n).foldl (fun buf c => c.store data buf) buf =
      wrapWrite buf pos (data.take n) := by
  have hlength : (data.take n).length = n := List.length_take_of_le hn
  rw [copies, List.foldl_cons, Copy.store, wrapWrite, hlength]
  dsimp only
  rw [List.drop_zero, List.take_take, Nat.min_eq_left (Nat.min_le_left ..)]
  split
  · rw [List.foldl_cons, List.foldl_nil, Copy.store, List.drop_take]
  · rename_i hwhole
    rw [List.foldl_nil, List.drop_eq_nil_of_le (by omega), overwrite_nil]

end Circular
