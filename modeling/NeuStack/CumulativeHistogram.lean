import Mathlib.Algebra.Order.Field.Basic
import Mathlib.Algebra.Order.Floor.Semiring
import Mathlib.Tactic.FieldSimp
import Mathlib.Tactic.Linarith
import Mathlib.Tactic.NormNum
import Mathlib.Tactic.Ring

/-! # Interpolation in cumulative histograms

`size` boundaries divide a line into buckets, of which the last has no end; `count i` is how
many things are in the buckets up to the `i`-th.  The things have ranks, from one on.

A rank `x` need not be whole.  The bucket it is in can be taken with its end (`Reaches`) or
with its start (`Passes`); the two differ where `x` is the count of a bucket.  In a bucket
`line` interpolates between the edges, where the first bucket starts at zero and the last
ends at twice its start.

The values rise with the rank if no thing is in a bucket whose edges are the wrong way round
(`Rising`, `reaches_mono`, `passes_mono`).  Where they do, two ranks have one value only if
they are equal or the buckets between them have no width (`line_eq_iff`).
-/
structure CumulativeHistogram (K : Type) [LinearOrder K] where
  size : Nat
  size_pos : 0 < size
  bound : Nat → K
  count : Nat → Nat
  bound_lt : ∀ {i j}, i < j → j < size → bound i < bound j
  count_le : ∀ {i j}, i ≤ j → j ≤ size → count i ≤ count j

namespace CumulativeHistogram

section Order
variable {K : Type} [LinearOrder K] (h : CumulativeHistogram K)

/-- How many things there are. -/
def total : Nat := h.count h.size

/-- How many things are below a bucket. -/
def prev (i : Nat) : Nat := if i = 0 then 0 else h.count (i - 1)

variable {h} {i j : Nat}

theorem prev_succ (i : Nat) : h.prev (i + 1) = h.count i := if_neg (Nat.succ_ne_zero i)

theorem bound_le (hij : i ≤ j) (hj : j < h.size) : h.bound i ≤ h.bound j := by
  rcases Nat.lt_or_eq_of_le hij with hlt | rfl
  · exact (h.bound_lt hlt hj).le
  · exact le_refl _

theorem bound_eq_iff (hi : i < h.size) (hj : j < h.size) : h.bound i = h.bound j ↔ i = j := by
  constructor
  · intro heq
    rcases Nat.lt_trichotomy i j with hlt | rfl | hlt
    · exact absurd heq (h.bound_lt hlt hj).ne
    · rfl
    · exact absurd heq.symm (h.bound_lt hlt hi).ne
  · rintro rfl
    rfl

/-- What a bucket counts is below the later ones. -/
theorem count_le_prev (hij : i < j) (hj : j ≤ h.size) : h.count i ≤ h.prev j := by
  obtain ⟨j, rfl⟩ : ∃ k, j = k + 1 := ⟨j - 1, by omega⟩
  rw [prev_succ]
  exact h.count_le (by omega) (by omega)

end Order

variable {K : Type} [Field K] [LinearOrder K] (h : CumulativeHistogram K)

/-- Where a bucket starts. -/
def lower (i : Nat) : K := if i = 0 then 0 else h.bound (i - 1)

/-- Where it ends. -/
def upper (i : Nat) : K := if i < h.size then h.bound i else h.bound (h.size - 1) * 2

/-- The value of a rank, if it is in the bucket `i`. -/
def line (i : Nat) (x : K) : K :=
  h.lower i + (x - h.prev i) / (h.count i - h.prev i) * (h.upper i - h.lower i)

/-- The rank `x` is in the bucket `i`, or at its end. -/
structure Reaches (i : Nat) (x : K) : Prop where
  le_size : i ≤ h.size
  prev_lt : (h.prev i : K) < x
  le_count : x ≤ h.count i

/-- The rank `x` is in the bucket `i`, or at its start. -/
structure Passes (i : Nat) (x : K) : Prop where
  le_size : i ≤ h.size
  prev_le : (h.prev i : K) ≤ x
  lt_count : x < h.count i

/-- No thing is in a bucket whose edges are the wrong way round. -/
structure Rising : Prop where
  first : 0 < h.count 0 → 0 ≤ h.bound 0
  last : h.count (h.size - 1) < h.total → 0 ≤ h.bound (h.size - 1)

variable {h} {i j : Nat} {x y : K}

/-! ## The edges -/

theorem upper_of_lt (hi : i < h.size) : h.upper i = h.bound i := if_pos hi

theorem upper_size : h.upper h.size = h.bound (h.size - 1) * 2 := if_neg (Nat.lt_irrefl _)

theorem lower_succ (i : Nat) : h.lower (i + 1) = h.bound i := if_neg (Nat.succ_ne_zero i)

/-- A bucket ends where a later one starts, or before that. -/
theorem upper_le_lower (hij : i < j) (hj : j ≤ h.size) : h.upper i ≤ h.lower j := by
  obtain ⟨j, rfl⟩ : ∃ k, j = k + 1 := ⟨j - 1, by omega⟩
  rw [upper_of_lt (by omega), lower_succ]
  exact bound_le (by omega) (by omega)

theorem upper_eq_lower_iff (hij : i < j) (hj : j ≤ h.size) :
    h.upper i = h.lower j ↔ j = i + 1 := by
  obtain ⟨j, rfl⟩ : ∃ k, j = k + 1 := ⟨j - 1, by omega⟩
  rw [upper_of_lt (by omega), lower_succ, bound_eq_iff (by omega) (by omega)]
  omega

variable [IsStrictOrderedRing K]

/-- Which buckets have no width. -/
theorem lower_eq_upper_iff (hi : i ≤ h.size) :
    h.lower i = h.upper i ↔
      i = 0 ∧ h.bound 0 = 0 ∨ i = h.size ∧ h.bound (h.size - 1) = 0 := by
  have hpos := h.size_pos
  rcases Nat.lt_or_eq_of_le hi with hlt | rfl
  · rw [upper_of_lt hlt]
    cases i with
    | zero =>
      rw [lower, if_pos rfl]
      exact ⟨fun heq => Or.inl ⟨rfl, heq.symm⟩, fun hor => by
        rcases hor with ⟨-, heq⟩ | ⟨heq, -⟩
        · exact heq.symm
        · omega⟩
    | succ i =>
      rw [lower_succ, bound_eq_iff (by omega) hlt]
      constructor
      · omega
      · rintro (⟨heq, -⟩ | ⟨heq, -⟩) <;> omega
  · rw [upper_size, lower, if_neg (by omega)]
    constructor
    · intro heq
      exact Or.inr ⟨rfl, by linarith⟩
    · rintro (⟨heq, -⟩ | ⟨-, heq⟩)
      · omega
      · rw [heq, zero_mul]

/-- A bucket with something in it has its edges the right way round. -/
theorem Rising.lower_le_upper (hr : h.Rising) (hi : i ≤ h.size) (hne : h.prev i < h.count i) :
    h.lower i ≤ h.upper i := by
  rcases Nat.lt_or_eq_of_le hi with hlt | rfl
  · rw [upper_of_lt hlt]
    cases i with
    | zero => exact hr.first hne
    | succ i =>
      rw [lower_succ]
      exact bound_le (Nat.le_succ i) hlt
  · have hpos := h.size_pos
    obtain ⟨k, hk⟩ : ∃ k, h.size = k + 1 := ⟨h.size - 1, by omega⟩
    have hlast := hr.last (by rw [total]; rw [prev, if_neg (by omega)] at hne; exact hne)
    rw [upper_size, lower, if_neg (by omega)]
    linarith

/-! ## In one bucket -/

theorem sub_pos_of_prev_lt (hne : h.prev i < h.count i) : (0 : K) < h.count i - h.prev i :=
  sub_pos.mpr (Nat.cast_lt.mpr hne)

omit [IsStrictOrderedRing K] in
theorem line_prev (i : Nat) : h.line i (h.prev i) = h.lower i := by
  rw [line, sub_self, zero_div, zero_mul, add_zero]

theorem line_count (hne : h.prev i < h.count i) : h.line i (h.count i) = h.upper i := by
  rw [line, div_self (sub_pos_of_prev_lt (K := K) hne).ne', one_mul, add_sub_cancel]

omit [IsStrictOrderedRing K] in
/-- How the value changes with the rank. -/
theorem line_sub_line (x y : K) :
    h.line i y - h.line i x = (y - x) / (h.count i - h.prev i) * (h.upper i - h.lower i) := by
  rw [line, line]
  ring

theorem line_le_line (hne : h.prev i < h.count i) (hw : h.lower i ≤ h.upper i) (hxy : x ≤ y) :
    h.line i x ≤ h.line i y := by
  have hslope := div_nonneg (sub_nonneg.mpr hxy) (sub_pos_of_prev_lt (K := K) hne).le
  rw [← sub_nonneg, line_sub_line]
  exact mul_nonneg hslope (sub_nonneg.mpr hw)

theorem line_lt_line (hne : h.prev i < h.count i) (hw : h.upper i < h.lower i) (hxy : x < y) :
    h.line i y < h.line i x := by
  have hslope := div_pos (sub_pos.mpr hxy) (sub_pos_of_prev_lt (K := K) hne)
  rw [← sub_neg, line_sub_line]
  exact mul_neg_of_pos_of_neg hslope (sub_neg.mpr hw)

theorem line_inj (hne : h.prev i < h.count i) :
    h.line i x = h.line i y ↔ x = y ∨ h.lower i = h.upper i := by
  have hwidth := (sub_pos_of_prev_lt (K := K) hne).ne'
  rw [eq_comm, ← sub_eq_zero, line_sub_line, mul_eq_zero, div_eq_zero_iff, or_iff_left hwidth,
    sub_eq_zero, sub_eq_zero]
  exact or_congr eq_comm eq_comm

theorem Reaches.prev_lt_count (hx : h.Reaches i x) : h.prev i < h.count i :=
  Nat.cast_lt.mp (hx.prev_lt.trans_le hx.le_count)

theorem Passes.prev_lt_count (hx : h.Passes i x) : h.prev i < h.count i :=
  Nat.cast_lt.mp (hx.prev_le.trans_lt hx.lt_count)

/-- The value is between the edges. -/
theorem line_mem (hr : h.Rising) (hi : i ≤ h.size) (hne : h.prev i < h.count i)
    (hlow : (h.prev i : K) ≤ x) (hhigh : x ≤ h.count i) :
    h.lower i ≤ h.line i x ∧ h.line i x ≤ h.upper i := by
  have hw := hr.lower_le_upper hi hne
  constructor
  · exact (line_prev i).symm.trans_le (line_le_line hne hw hlow)
  · exact (line_le_line hne hw hhigh).trans_eq (line_count hne)

/-! ## Across the buckets -/

/-- Values rise from one bucket to a later one. -/
theorem line_le_line_of_lt (hr : h.Rising) (hij : i < j) (hj : j ≤ h.size)
    (hi' : h.prev i < h.count i) (hj' : h.prev j < h.count j) (hx : (h.prev i : K) ≤ x)
    (hx' : x ≤ h.count i) (hy : (h.prev j : K) ≤ y) (hy' : y ≤ h.count j) :
    h.line i x ≤ h.line j y :=
  (line_mem hr (by omega) hi' hx hx').2.trans
    ((upper_le_lower hij hj).trans (line_mem hr hj hj' hy hy').1)

theorem Reaches.le_of_le (hx : h.Reaches i x) (hy : h.Reaches j y) (hxy : x ≤ y) : i ≤ j := by
  by_contra hlt
  have hle : (h.count j : K) ≤ h.prev i :=
    Nat.cast_le.mpr (count_le_prev (Nat.lt_of_not_le hlt) hx.le_size)
  exact absurd (hxy.trans (hy.le_count.trans hle)) (not_le.mpr hx.prev_lt)

theorem Reaches.unique (hx : h.Reaches i x) (hy : h.Reaches j x) : i = j :=
  Nat.le_antisymm (hx.le_of_le hy (le_refl x)) (hy.le_of_le hx (le_refl x))

/-- **The values rise with the rank.** -/
theorem reaches_mono (hr : h.Rising) (hx : h.Reaches i x) (hy : h.Reaches j y) (hxy : x ≤ y) :
    h.line i x ≤ h.line j y := by
  rcases Nat.lt_or_eq_of_le (hx.le_of_le hy hxy) with hlt | rfl
  · exact line_le_line_of_lt hr hlt hy.le_size hx.prev_lt_count hy.prev_lt_count hx.prev_lt.le
      hx.le_count hy.prev_lt.le hy.le_count
  · exact line_le_line hx.prev_lt_count (hr.lower_le_upper hx.le_size hx.prev_lt_count) hxy

theorem Passes.le_of_le (hx : h.Passes i x) (hy : h.Passes j y) (hxy : x ≤ y) : i ≤ j := by
  by_contra hlt
  have hle : (h.count j : K) ≤ h.prev i :=
    Nat.cast_le.mpr (count_le_prev (Nat.lt_of_not_le hlt) hx.le_size)
  exact absurd (hle.trans (hx.prev_le.trans hxy)) (not_le.mpr hy.lt_count)

theorem passes_mono (hr : h.Rising) (hx : h.Passes i x) (hy : h.Passes j y) (hxy : x ≤ y) :
    h.line i x ≤ h.line j y := by
  rcases Nat.lt_or_eq_of_le (hx.le_of_le hy hxy) with hlt | rfl
  · exact line_le_line_of_lt hr hlt hy.le_size hx.prev_lt_count hy.prev_lt_count hx.prev_le
      hx.lt_count.le hy.prev_le hy.lt_count.le
  · exact line_le_line hx.prev_lt_count (hr.lower_le_upper hx.le_size hx.prev_lt_count) hxy

/-- The buckets must be the right way round for that. -/
theorem rising_of_mono
    (hmono : ∀ i x j y, h.Reaches i x → h.Reaches j y → x ≤ y → y < h.total →
      h.line i x ≤ h.line j y) : h.Rising where
  first hpos := by
    by_contra hneg
    have hone : (1 : K) ≤ h.count 0 := Nat.one_le_cast.mpr hpos
    have htotal : (h.count 0 : K) ≤ h.total :=
      Nat.cast_le.mpr (h.count_le (Nat.zero_le _) (le_refl _))
    have hprev : (h.prev 0 : K) = 0 := Nat.cast_zero
    have hwrong : h.upper 0 < h.lower 0 := by
      rw [upper_of_lt h.size_pos]
      exact not_le.mp hneg
    have hne : h.prev 0 < h.count 0 := hpos
    have hfall := line_lt_line (x := 1 / 3) (y := 1 / 2) hne hwrong (by norm_num)
    refine absurd (hmono 0 (1 / 3) 0 (1 / 2) ⟨Nat.zero_le _, ?_, ?_⟩ ⟨Nat.zero_le _, ?_, ?_⟩ ?_ ?_)
      (not_le.mpr hfall)
    all_goals linarith
  last hlast := by
    by_contra hneg
    have hsize := h.size_pos
    have hprev : h.prev h.size = h.count (h.size - 1) := if_neg (by omega)
    have hprev' : (h.prev h.size : K) = h.count (h.size - 1) := congrArg _ hprev
    have hone : (h.count (h.size - 1) : K) + 1 ≤ h.total := by
      exact_mod_cast hlast
    have hcount : (h.count h.size : K) = h.total := rfl
    have hwrong : h.upper h.size < h.lower h.size := by
      rw [upper_size, lower, if_neg (by omega)]
      linarith [not_le.mp hneg]
    have hne : h.prev h.size < h.count h.size := hprev ▸ hlast
    have hfall := line_lt_line (x := (h.total : K) - 1 / 2) (y := (h.total : K) - 1 / 3) hne
      hwrong (by linarith)
    refine absurd (hmono h.size _ h.size _ ⟨le_refl _, ?_, ?_⟩ ⟨le_refl _, ?_, ?_⟩ ?_ ?_)
      (not_le.mpr hfall)
    all_goals linarith

/-- **Starts and ends of buckets** give a rank one value, unless it is the count of a bucket
with nothing in the next. -/
theorem passes_eq_reaches_iff (hj : h.Passes j x) (hi : h.Reaches i x) :
    h.line j x = h.line i x ↔
      ∀ k < h.size, ¬ ((h.count k : K) = x ∧ (h.count (k + 1) : K) = x) := by
  have hij : i ≤ j := by
    by_contra hlt
    have hle : (h.count j : K) ≤ h.prev i :=
      Nat.cast_le.mpr (count_le_prev (Nat.lt_of_not_le hlt) hi.le_size)
    exact absurd (hj.lt_count.trans_le hle) (not_lt.mpr hi.prev_lt.le)
  have hvalue : h.line j x = h.line i x ↔ j ≤ i + 1 := by
    rcases Nat.lt_or_eq_of_le hij with hlt | rfl
    · have hle : (h.count i : K) ≤ h.prev j := Nat.cast_le.mpr (count_le_prev hlt hj.le_size)
      have hcount : x = h.count i := le_antisymm hi.le_count (hle.trans hj.prev_le)
      have hprev : x = h.prev j := le_antisymm (hi.le_count.trans hle) hj.prev_le
      have hlow : h.line j x = h.lower j := hprev ▸ line_prev j
      have hhigh : h.line i x = h.upper i := by
        rw [hcount]
        exact line_count hi.prev_lt_count
      rw [hlow, hhigh, eq_comm, upper_eq_lower_iff hlt hj.le_size]
      omega
    · exact iff_of_true rfl (Nat.le_succ i)
  rw [hvalue]
  constructor
  · rintro hnear k hk ⟨hcount, hnext⟩
    have hik : i ≤ k := by
      by_contra hlt
      have := (Nat.cast_le (α := K)).mpr (count_le_prev (Nat.lt_of_not_le hlt) hi.le_size)
      exact absurd hi.prev_lt (not_lt.mpr (hcount ▸ this))
    have hkj : k + 1 < j := by
      by_contra hle
      have := (Nat.cast_le (α := K)).mpr (h.count_le (Nat.le_of_not_lt hle) hk)
      exact absurd hj.lt_count (not_lt.mpr (hnext ▸ this))
    omega
  · intro hfull
    by_contra hfar
    have hlt : i + 1 < j := Nat.lt_of_not_le hfar
    have hle : (h.count (i + 1) : K) ≤ h.prev j := Nat.cast_le.mpr (count_le_prev hlt hj.le_size)
    have hstep : (h.count i : K) ≤ h.count (i + 1) :=
      Nat.cast_le.mpr (h.count_le (Nat.le_succ i) (by have := hj.le_size; omega))
    have hlow := hi.le_count
    have hhigh := hj.prev_le
    exact hfull i (by have := hj.le_size; omega)
      ⟨le_antisymm (by linarith) hlow, le_antisymm (by linarith) (by linarith)⟩

/-- A rank that is not above one is in the bucket of the first thing. -/
theorem Reaches.eq_of_le_one {k : Nat} (hi : h.Reaches i x) (hk : h.Reaches k 1) (hx : x ≤ 1) :
    i = k := by
  refine Nat.le_antisymm (hi.le_of_le hk hx) ?_
  by_contra hlt
  have hnone : h.prev k = 0 := Nat.lt_one_iff.mp (by exact_mod_cast hk.prev_lt)
  have hcount : h.count i = 0 :=
    Nat.le_zero.mp (hnone ▸ count_le_prev (Nat.lt_of_not_le hlt) hk.le_size)
  exact absurd hi.prev_lt_count (by omega)

/-- **Ranks and whole ranks.**  Cutting off the fraction of a rank (but not below one)
changes its value, unless the bucket has no width and none with something in it, or only
the whole rank itself, lies between. -/
theorem line_eq_iff (hr : h.Rising) {k t : Nat} (hi : h.Reaches i x) (hk : h.Reaches k (t : K))
    (ht : (t : K) ≤ x ∧ x < t + 1 ∨ t = 1 ∧ x < 1) :
    h.line i x = h.line k t ↔ x = t ∨ h.lower i = h.upper i ∧ i ≤ k + 1 := by
  rcases ht with ⟨hle, hlt⟩ | ⟨rfl, hlt⟩
  · rcases Nat.lt_or_eq_of_le (hk.le_of_le hi hle) with hki | rfl
    · -- The whole rank is the last of an earlier bucket.
      have hbelow := count_le_prev hki hi.le_size
      have hcount : h.count k = t := by
        refine Nat.le_antisymm ?_ (by exact_mod_cast hk.le_count)
        have : (h.count k : K) < t + 1 :=
          (Nat.cast_le.mpr hbelow).trans_lt (hi.prev_lt.trans hlt)
        exact Nat.lt_succ_iff.mp (by exact_mod_cast this)
      have hne : x ≠ t := by
        have : (t : K) ≤ h.prev i := Nat.cast_le.mpr (hcount ▸ hbelow)
        exact (this.trans_lt hi.prev_lt).ne'
      have hhigh : h.line k t = h.upper k := by
        rw [← hcount]
        exact line_count hk.prev_lt_count
      have hedges := upper_le_lower hki hi.le_size
      have hlow := (line_mem hr hi.le_size hi.prev_lt_count hi.prev_lt.le hi.le_count).1
      have hstart : h.line i x = h.lower i ↔ h.lower i = h.upper i := by
        rw [← line_prev i, line_inj hi.prev_lt_count, line_prev]
        exact or_iff_right hi.prev_lt.ne'
      rw [hhigh, or_iff_right hne, ← hstart]
      constructor
      · intro heq
        have hlower : h.line i x = h.lower i := le_antisymm (heq ▸ hedges) hlow
        exact ⟨hlower, Nat.le_of_eq
          ((upper_eq_lower_iff hki hi.le_size).mp (heq.symm.trans hlower))⟩
      · rintro ⟨heq, hnear⟩
        rw [heq]
        exact ((upper_eq_lower_iff hki hi.le_size).mpr (by omega)).symm
    · rw [line_inj hi.prev_lt_count, and_iff_left (Nat.le_succ k)]
  · rw [Nat.cast_one] at hk ⊢
    obtain rfl := hi.eq_of_le_one hk hlt.le
    rw [line_inj hi.prev_lt_count, and_iff_left (Nat.le_succ i)]

/-- The ranks whose bucket has no width, by the numbers alone. -/
theorem flat_iff {k t : Nat} (hi : h.Reaches i x) (hk : h.Reaches k (t : K)) :
    (h.lower i = h.upper i ∧ i ≤ k + 1) ↔
      h.bound 0 = 0 ∧ x ≤ h.count 0 ∨
        h.bound (h.size - 1) = 0 ∧ (h.count (h.size - 1) : K) < x ∧
          (h.size = 1 ∨ h.count (h.size - 2) < t) := by
  have hsize := h.size_pos
  have hle := hi.le_size
  have hfirst : i = 0 ↔ x ≤ h.count 0 := by
    constructor
    · rintro rfl
      exact hi.le_count
    · intro hx
      by_contra hne
      have hprev : (h.count 0 : K) ≤ h.prev i :=
        Nat.cast_le.mpr (count_le_prev (Nat.pos_of_ne_zero hne) hle)
      exact absurd hi.prev_lt (not_lt.mpr (hx.trans hprev))
  have hlast : i = h.size ↔ (h.count (h.size - 1) : K) < x := by
    constructor
    · rintro rfl
      have hprev : h.prev h.size = h.count (h.size - 1) := if_neg (by omega)
      exact hprev ▸ hi.prev_lt
    · intro hx
      by_contra hne
      have hcount : (h.count i : K) ≤ h.count (h.size - 1) :=
        Nat.cast_le.mpr (h.count_le (by omega) (by omega))
      exact absurd hx (not_lt.mpr (hi.le_count.trans hcount))
  have hnear : h.size ≤ k + 1 ↔ h.size = 1 ∨ h.count (h.size - 2) < t := by
    constructor
    · intro hnear
      refine or_iff_not_imp_left.mpr fun hone => ?_
      have hprev : h.count (h.size - 2) ≤ h.prev k := count_le_prev (by omega) hk.le_size
      exact lt_of_le_of_lt hprev (by exact_mod_cast hk.prev_lt)
    · rintro (hone | hlt)
      · omega
      · by_contra hfar
        have hcount : h.count k ≤ h.count (h.size - 2) := h.count_le (by omega) (by omega)
        have htk : t ≤ h.count k := by exact_mod_cast hk.le_count
        omega
  rw [lower_eq_upper_iff hle, ← hfirst, ← hlast, ← hnear]
  constructor
  · rintro ⟨⟨h0, hzero⟩ | ⟨hend, hzero⟩, hik⟩
    · exact Or.inl ⟨hzero, h0⟩
    · exact Or.inr ⟨hzero, hend, hend ▸ hik⟩
  · rintro (⟨hzero, h0⟩ | ⟨hzero, hend, hik⟩)
    · exact ⟨Or.inl ⟨h0, hzero⟩, by omega⟩
    · exact ⟨Or.inr ⟨hend, hzero⟩, by omega⟩

variable [FloorSemiring K]

/-- The rank `x` is whole or in a bucket without width, no count of a bucket with an empty
one behind it, and the buckets with something in them are the right way round. -/
structure Sharp (h : CumulativeHistogram K) (x : K) : Prop where
  rising : h.Rising
  filled : ∀ k < h.size, ¬ ((h.count k : K) = x ∧ (h.count (k + 1) : K) = x)
  whole : (∃ t : Nat, 0 < t ∧ x = t) ∨ h.bound 0 = 0 ∧ x ≤ h.count 0 ∨
    h.bound (h.size - 1) = 0 ∧ (h.count (h.size - 1) : K) < x ∧
      (h.size = 1 ∨ h.count (h.size - 2) < max 1 ⌊x⌋₊)

/-- When cutting off the fraction does not change the value. -/
theorem whole_iff (hr : h.Rising) (hx : 0 < x) {k : Nat} (hi : h.Reaches i x)
    (hk : h.Reaches k ((max 1 ⌊x⌋₊ : Nat) : K)) :
    h.line i x = h.line k ((max 1 ⌊x⌋₊ : Nat) : K) ↔
      (∃ t : Nat, 0 < t ∧ x = t) ∨ h.bound 0 = 0 ∧ x ≤ h.count 0 ∨
        h.bound (h.size - 1) = 0 ∧ (h.count (h.size - 1) : K) < x ∧
          (h.size = 1 ∨ h.count (h.size - 2) < max 1 ⌊x⌋₊) := by
  have hcut : ((max 1 ⌊x⌋₊ : Nat) : K) ≤ x ∧ x < (max 1 ⌊x⌋₊ : Nat) + 1 ∨
      max 1 ⌊x⌋₊ = 1 ∧ x < 1 := by
    rcases lt_or_ge x 1 with hlt | hge
    · exact Or.inr ⟨max_eq_left (Nat.floor_eq_zero.mpr hlt ▸ Nat.zero_le 1), hlt⟩
    · rw [max_eq_right ((Nat.one_le_floor_iff x).mpr hge)]
      exact Or.inl ⟨Nat.floor_le hx.le, Nat.lt_floor_add_one x⟩
  have hnat : x = (max 1 ⌊x⌋₊ : Nat) ↔ ∃ t : Nat, 0 < t ∧ x = t := by
    constructor
    · intro heq
      exact ⟨_, Nat.lt_of_lt_of_le Nat.one_pos (Nat.le_max_left ..), heq⟩
    · rintro ⟨t, ht, rfl⟩
      rw [Nat.floor_natCast, max_eq_right ht]
  rw [line_eq_iff hr hi hk hcut, hnat, flat_iff hi hk]

end CumulativeHistogram
