import Mathlib.Algebra.Order.Field.Rat
import Mathlib.Data.Rat.Cast.Order
import Mathlib.Tactic.FieldSimp
import Mathlib.Tactic.Linarith

/-! # Token buckets

A bucket holds at most `burst` tokens, and a check takes one if there is one.  Between two
checks it gains tokens: `Log` are the checks of a bucket of whole tokens, whatever whole
number of tokens it gains as far as `Gains` allows it.

A bucket that never gains more than `rate` tokens in `scale` units of time admits no more
than that and `burst` in any window (`Log.admits_at_most`).  The ideal bucket gains exactly
that, in fractions of tokens; one that always gains as much admits whatever the ideal one
can pay for (`Log.pays`).
-/
namespace TokenBucket

/-- The tokens after the check at `last`. -/
structure Level (α : Type) where
  tokens : α
  last : Nat

structure Check where
  time : Nat
  allowed : Bool
  deriving DecidableEq

variable (scale rate burst : Nat)

/-- The bucket after a check that found `tokens`. -/
def takeOne (tokens now : Nat) : Level Nat := ⟨tokens - 1, now⟩

/-- **The checks of a bucket**, which is full at the first. -/
inductive Log (Gains : Level Nat → Nat → Nat → Prop) : Option (Level Nat) → List Check → Prop where
  | nil (l : Option (Level Nat)) : Log Gains l []
  | first {now : Nat} {cs : List Check} (h : Log Gains (some (takeOne burst now)) cs) :
    Log Gains none (⟨now, decide (0 < burst)⟩ :: cs)
  | next {l : Level Nat} {now gain : Nat} {cs : List Check} (hnow : l.last ≤ now)
    (hgain : Gains l now gain)
    (h : Log Gains (some (takeOne (min (l.tokens + gain) burst) now)) cs) :
    Log Gains (some l) (⟨now, decide (0 < min (l.tokens + gain) burst)⟩ :: cs)

variable {scale rate burst} {Gains Gains' : Level Nat → Nat → Nat → Prop}
variable {l : Level Nat} {cs : List Check}

theorem Log.mono (hGains : ∀ l now gain, Gains l now gain → Gains' l now gain)
    {l : Option (Level Nat)} (h : Log burst Gains l cs) : Log burst Gains' l cs := by
  induction h with
  | nil l => exact .nil l
  | first h ih => exact .first ih
  | next hnow hgain h ih => exact .next hnow (hGains _ _ _ hgain) ih

/-! ## No more than the rate -/

/-- At most `rate` tokens in `scale` units of time. -/
def AtMost (scale rate : Nat) (l : Level Nat) (now gain : Nat) : Prop :=
  gain * scale ≤ rate * (now - l.last)

/-- The checks that were admitted from `s` to `t`. -/
def admitted (s t : Nat) (cs : List Check) : Nat :=
  cs.countP fun c => c.allowed ∧ s ≤ c.time ∧ c.time ≤ t

theorem admitted_cons (s t : Nat) (c : Check) (cs : List Check) :
    admitted s t (c :: cs) =
      admitted s t cs + if c.allowed ∧ s ≤ c.time ∧ c.time ≤ t then 1 else 0 := by
  simp only [admitted, List.countP_cons, decide_eq_true_eq]

/-- Behind the end of the window nothing counts. -/
theorem Log.admitted_late (h : Log burst Gains (some l) cs) {s t : Nat} (ht : t < l.last) :
    admitted s t cs = 0 := by
  generalize hl : some l = o at h
  induction h generalizing l with
  | nil => rfl
  | first => cases hl
  | @next l' now gain cs hnow hgain h ih =>
    cases hl
    have hlate : t < now := Nat.lt_of_lt_of_le ht hnow
    rw [admitted_cons, ih hlate rfl, if_neg fun hc => Nat.not_lt.mpr hc.2.2 hlate]

/-- The tokens there are, and those that come until the end of the window. -/
theorem Log.admitted_from (h : Log burst (AtMost scale rate) (some l) cs) {s t : Nat}
    (ht : l.last ≤ t) :
    admitted s t cs * scale ≤ l.tokens * scale + rate * (t - l.last) := by
  generalize hl : some l = o at h
  induction h generalizing l with
  | nil => exact Nat.zero_le _ |>.trans_eq' (Nat.zero_mul scale).symm
  | first => cases hl
  | @next l' now gain cs hnow hgain h ih =>
    cases hl
    rw [admitted_cons]
    rcases Nat.lt_or_ge t now with hlate | hin
    · rw [h.admitted_late hlate, if_neg fun hc => Nat.not_lt.mpr hc.2.2 hlate, Nat.zero_mul]
      exact Nat.zero_le _
    · have hrest := ih (l := takeOne (min (l'.tokens + gain) burst) now) hin rfl
      have hsplit : rate * (t - l'.last) = rate * (now - l'.last) + rate * (t - now) := by
        rw [← Nat.mul_add]
        congr 1
        omega
      have hfound : min (l'.tokens + gain) burst * scale ≤
          l'.tokens * scale + rate * (now - l'.last) := by
        refine (Nat.mul_le_mul_right scale (Nat.min_le_left _ _)).trans ?_
        rw [Nat.add_mul]
        exact Nat.add_le_add_left hgain _
      rw [hsplit]
      generalize min (l'.tokens + gain) burst = found at *
      simp only [takeOne] at hrest
      -- at most one more is admitted, and only if there is a token
      have hcount : admitted s t cs + (if decide (0 < found) = true ∧ s ≤ now ∧ now ≤ t
          then 1 else 0) ≤ admitted s t cs + min found 1 := by
        refine Nat.add_le_add_left ?_ _
        split
        · rename_i hc
          have hpos := of_decide_eq_true hc.1
          omega
        · exact Nat.zero_le _
      have htaken : (admitted s t cs + min found 1) * scale ≤
          found * scale + rate * (t - now) := by
        rw [Nat.add_mul]
        cases found with
        | zero => simpa [takeOne] using hrest
        | succ found =>
          rw [Nat.succ_mul]
          simp only [Nat.add_sub_cancel] at hrest
          rw [Nat.min_eq_right (Nat.succ_le_succ (Nat.zero_le found)), Nat.one_mul]
          omega
      exact ((Nat.mul_le_mul_right scale hcount).trans htaken).trans (by omega)

/-- **No more than the burst and the rate**, in any window. -/
theorem Log.admits_at_most (hscale : 0 < scale) {l : Option (Level Nat)}
    (h : Log burst (AtMost scale rate) l cs) (s t : Nat) :
    admitted s t cs ≤ burst + rate * (t - s) / scale := by
  -- what a check in the window finds is at most the burst
  have hcheck {found now : Nat} {cs : List Check} (hfound : found ≤ burst)
      (hrest : Log burst (AtMost scale rate) (some (takeOne found now)) cs)
      (ih : admitted s t cs ≤ burst + rate * (t - s) / scale) :
      admitted s t (⟨now, decide (0 < found)⟩ :: cs) ≤ burst + rate * (t - s) / scale := by
    rw [admitted_cons]
    split
    · rename_i hc
      obtain ⟨hallowed, hlow, hhigh⟩ := hc
      have hpos : 0 < found := of_decide_eq_true hallowed
      have hle := hrest.admitted_from (s := s) hhigh
      have hdiv : admitted s t cs ≤ (found - 1) + rate * (t - now) / scale := by
        rw [← Nat.mul_add_div hscale, Nat.le_div_iff_mul_le hscale, Nat.mul_comm scale]
        exact hle
      have hrate : rate * (t - now) / scale ≤ rate * (t - s) / scale :=
        Nat.div_le_div_right (Nat.mul_le_mul_left rate (Nat.sub_le_sub_left hlow t))
      omega
    · exact ih
  induction h with
  | nil => exact Nat.zero_le _
  | first h ih => exact hcheck (Nat.le_refl _) h ih
  | next hnow hgain h ih => exact hcheck (Nat.min_le_right _ _) h ih

/-! ## No less than the ideal bucket -/

/-- The gain is what the rate gives, or it fills the bucket. -/
def Exactly (scale rate burst : Nat) (l : Level Nat) (now gain : Nat) : Prop :=
  gain * scale ≤ rate * (now - l.last) ∧
    (rate * (now - l.last) ≤ gain * scale ∨ burst ≤ l.tokens + gain)

/-- The ideal bucket at `now`, before the check. -/
def refillIdeal (scale rate burst : Nat) (i : Level ℚ) (now : Nat) : ℚ :=
  min (i.tokens + rate * (now - i.last : Nat) / scale) burst

/-- What a check finds in the ideal bucket, which is full at the first. -/
def foundIdeal (scale rate burst : Nat) : Option (Level ℚ) → Nat → ℚ
  | none, _ => burst
  | some i, now => refillIdeal scale rate burst i now

/-- **Whenever the ideal bucket holds a token, the check is allowed.**  The ideal bucket
pays for every check that is allowed. -/
def Conforming (scale rate burst : Nat) : Option (Level ℚ) → List Check → Prop
  | _, [] => True
  | i, c :: cs =>
    let found := foundIdeal scale rate burst i c.time
    (1 ≤ found → c.allowed = true) ∧
      Conforming scale rate burst (some ⟨if c.allowed then found - 1 else found, c.time⟩) cs

/-- The same bucket with its tokens as rational numbers. -/
def Level.ideal (l : Level Nat) : Level ℚ := ⟨l.tokens, l.last⟩

/-- Both buckets find the same. -/
theorem refillIdeal_eq (hscale : 0 < scale) {now gain : Nat}
    (hgain : Exactly scale rate burst l now gain) :
    refillIdeal scale rate burst l.ideal now = (min (l.tokens + gain) burst : Nat) := by
  have hpos : (0 : ℚ) < scale := Nat.cast_pos.mpr hscale
  obtain ⟨hle, hge⟩ := hgain
  have hle' : (gain : ℚ) ≤ rate * (now - l.last : Nat) / scale := by
    rw [le_div_iff₀ hpos]
    exact_mod_cast hle
  rw [refillIdeal, Level.ideal, Nat.cast_min, Nat.cast_add]
  rcases hge with hge | hfull
  · have hge' : (rate * (now - l.last : Nat) / scale : ℚ) ≤ gain := by
      rw [div_le_iff₀ hpos]
      exact_mod_cast hge
    rw [le_antisymm hge' hle']
  · have hfull' : (burst : ℚ) ≤ l.tokens + gain := by exact_mod_cast hfull
    rw [min_eq_right hfull', min_eq_right (hfull'.trans (by linarith))]

/-- **A bucket that gains exactly the rate admits what the ideal one can pay for.** -/
theorem Log.pays (hscale : 0 < scale) {l : Option (Level Nat)}
    (h : Log burst (Exactly scale rate burst) l cs) :
    Conforming scale rate burst (l.map Level.ideal) cs := by
  -- a check of the two buckets that both find `found`
  have hcheck {found now : Nat} {cs : List Check}
      (ih : Conforming scale rate burst (some (takeOne found now).ideal) cs) :
      (1 ≤ (found : ℚ) → decide (0 < found) = true) ∧ Conforming scale rate burst
        (some ⟨if decide (0 < found) = true then (found : ℚ) - 1 else found, now⟩) cs := by
    refine ⟨fun hone => decide_eq_true (Nat.cast_le.mp (Nat.cast_one.trans_le hone)), ?_⟩
    cases found with
    | zero => exact ih
    | succ found =>
      rw [if_pos (decide_eq_true (Nat.succ_pos found)), Nat.cast_succ, add_sub_cancel_right]
      exact ih
  induction h with
  | nil => exact trivial
  | first h ih => exact hcheck ih
  | next hnow hgain h ih =>
    rw [Option.map_some, Conforming, foundIdeal, refillIdeal_eq hscale hgain]
    exact hcheck ih

end TokenBucket
