import Mathlib.Data.List.DropRight

/-! # An alarm at every `k`-th tick

Some of the things that happen are *ticks* and some are *resets*; an **alarm** goes off at
every `k`-th tick since the last reset.  Only the *good* ticks should count, and the alarm
should go off at most once between two resets.  `goesOff_iff` says which histories an
alarm that counts all ticks and starts over after each time serves well: those with fewer
than `2 * k` ticks between two resets, of which the first `k` are good.
-/
namespace EveryNth

/-- What happens, sorted. -/
structure Alarm (α : Type) where
  reset : α → Bool
  tick : α → Bool
  good : α → Bool
  fire : α → Bool
  tick_reset : ∀ a, tick a = true → reset a = false
  good_tick : ∀ a, good a = true → tick a = true

namespace Alarm
variable {α : Type} (A : Alarm α)

/-- What happened since the last reset. -/
def since (h : List α) : List α := h.rtakeWhile (!A.reset ·)

def ticks (h : List α) : List α := (A.since h).filter A.tick

/-- **The alarm goes off at every `k`-th tick since the last reset.** -/
def Regular (k : Nat) (h : List α) : Prop :=
  ∀ as a, as ++ [a] <+: h → (A.fire a = true ↔ A.tick a = true ∧ (A.ticks as).length % k + 1 = k)

/-- Whenever it goes off, `k` good ticks have come since the last reset. -/
def Deserved (k : Nat) (h : List α) : Prop :=
  ∀ as a, as ++ [a] <+: h → A.fire a = true → k ≤ (A.since (as ++ [a])).countP A.good

/-- It goes off at most once between two resets. -/
def Once (h : List α) : Prop := ∀ as, as <+: h → (A.since as).countP A.fire ≤ 1

/-- Between two resets there are fewer than `2 * k` ticks, of which the first `k` are good. -/
def Tame (k : Nat) (h : List α) : Prop :=
  ∀ as, as <+: h → (A.ticks as).length < 2 * k ∧
    (k ≤ (A.ticks as).length → ∀ a ∈ (A.ticks as).take k, A.good a = true)

variable {A} {k : Nat} {h as : List α} {a : α}

theorem since_of_reset (ha : A.reset a = true) : A.since (as ++ [a]) = [] :=
  List.rtakeWhile_concat_neg _ _ _ (by simp [ha])

theorem since_of_not_reset (ha : A.reset a = false) : A.since (as ++ [a]) = A.since as ++ [a] :=
  List.rtakeWhile_concat_pos _ _ _ (by simp [ha])

theorem ticks_of_reset (ha : A.reset a = true) : A.ticks (as ++ [a]) = [] := by
  rw [ticks, since_of_reset ha, List.filter_nil]

theorem ticks_of_not_tick (hr : A.reset a = false) (ha : A.tick a = false) :
    A.ticks (as ++ [a]) = A.ticks as := by
  rw [ticks, since_of_not_reset hr, List.filter_append, List.filter_cons_of_neg (by simp [ha]),
    List.filter_nil, List.append_nil, ticks]

theorem ticks_of_tick (ha : A.tick a = true) : A.ticks (as ++ [a]) = A.ticks as ++ [a] := by
  rw [ticks, since_of_not_reset (A.tick_reset a ha), List.filter_append,
    List.filter_cons_of_pos ha, List.filter_nil, ticks]

/-- Only ticks are good. -/
theorem countP_good : (A.since as).countP A.good = (A.ticks as).countP A.good := by
  rw [ticks, List.countP_filter]
  refine List.countP_congr fun a _ => ?_
  rw [Bool.and_eq_true]
  exact ⟨fun ha => ⟨ha, A.good_tick a ha⟩, And.left⟩

theorem Regular.of_append {bs : List α} (hreg : A.Regular k (as ++ bs)) : A.Regular k as :=
  fun cs a hcs => hreg cs a (hcs.trans (List.prefix_append as bs))

theorem regular_nil : A.Regular k [] := fun as a has => by simp at has

theorem Regular.concat (hreg : A.Regular k as)
    (ha : A.fire a = true ↔ A.tick a = true ∧ (A.ticks as).length % k + 1 = k) :
    A.Regular k (as ++ [a]) := by
  intro bs b hbs
  rcases List.prefix_concat_iff.mp hbs with heq | hprefix
  · obtain ⟨rfl, hb⟩ := List.append_inj' heq rfl
    cases hb
    exact ha
  · exact hreg bs b hprefix

theorem dvd_succ_iff (hk : 0 < k) (n : Nat) : k ∣ n + 1 ↔ n % k + 1 = k := by
  have hlt : n % k < k := Nat.mod_lt n hk
  conv_lhs => rw [← Nat.div_add_mod n k, Nat.add_assoc]
  rw [Nat.dvd_add_right (Nat.dvd_mul_right k (n / k))]
  constructor
  · intro hdvd
    exact Nat.le_antisymm hlt (Nat.le_of_dvd (Nat.succ_pos _) hdvd)
  · intro heq
    exact ⟨1, heq.trans (Nat.mul_one k).symm⟩

/-- How often the alarm has gone off. -/
theorem Regular.countP_fire (hk : 0 < k) (hreg : A.Regular k as) :
    (A.since as).countP A.fire = (A.ticks as).length / k := by
  induction as using List.reverseRecOn with
  | nil => rw [ticks, show A.since [] = [] from List.rtakeWhile_nil ..]; simp
  | append_singleton as a ih =>
    have ih := ih hreg.of_append
    have hfire := hreg as a (List.prefix_refl _)
    cases hr : A.reset a with
    | true => rw [since_of_reset hr, ticks_of_reset hr]; simp
    | false =>
      rw [since_of_not_reset hr, List.countP_append, ih, List.countP_singleton]
      cases ht : A.tick a with
      | false =>
        rw [ticks_of_not_tick hr ht, if_neg, Nat.add_zero]
        rintro ha
        rw [(hfire.mp ha).1] at ht
        cases ht
      | true =>
        rw [ticks_of_tick ht, List.length_append, List.length_singleton, Nat.succ_div]
        congr 1
        refine if_congr ?_ rfl rfl
        rw [hfire, dvd_succ_iff hk]
        exact ⟨And.right, fun hlast => ⟨ht, hlast⟩⟩

theorem tame_of_nil (hk : 0 < k) (hnil : A.ticks as = []) : (A.ticks as).length < 2 * k ∧
    (k ≤ (A.ticks as).length → ∀ a ∈ (A.ticks as).take k, A.good a = true) := by
  rw [hnil]
  refine ⟨?_, fun hle => absurd hle ?_⟩ <;>
  · rw [List.length_nil]
    omega

/-- A regular alarm that is deserved each time and goes off once rings for tame histories. -/
theorem tame_of_once (hk : 0 < k) (hreg : A.Regular k h) (hdeserved : A.Deserved k h)
    (honce : A.Once h) : A.Tame k h := by
  intro as has
  induction as using List.reverseRecOn with
  | nil => exact tame_of_nil hk (by rw [ticks, since, List.rtakeWhile_nil, List.filter_nil])
  | append_singleton as a ih =>
    obtain ⟨hlt, hgood⟩ := ih ((List.prefix_append as [a]).trans has)
    have hfire := hreg as a has
    have hcount := honce (as ++ [a]) has
    rw [Regular.countP_fire hk (fun cs c hcs => hreg cs c (hcs.trans has))] at hcount
    cases hr : A.reset a with
    | true => exact tame_of_nil hk (ticks_of_reset hr)
    | false =>
      cases ht : A.tick a with
      | false =>
        rw [ticks_of_not_tick hr ht]
        exact ⟨hlt, hgood⟩
      | true =>
        rw [ticks_of_tick ht, List.length_append, List.length_singleton] at hcount ⊢
        have hlt' : (A.ticks as).length + 1 < 2 * k := by
          by_contra hge
          have heq : (A.ticks as).length + 1 = 2 * k := by omega
          rw [heq, Nat.mul_div_cancel _ hk] at hcount
          exact absurd hcount (by decide)
        refine ⟨hlt', fun hle => ?_⟩
        rcases Nat.lt_or_ge (A.ticks as).length k with hlast | hbefore
        · -- the alarm goes off for the first time
          have hlen : (A.ticks as).length % k + 1 = k := by rw [Nat.mod_eq_of_lt hlast]; omega
          have hall := hdeserved as a has (hfire.mpr ⟨ht, hlen⟩)
          rw [countP_good, ticks_of_tick ht] at hall
          rw [List.take_of_length_le (by rw [List.length_append, List.length_singleton]; omega)]
          refine List.countP_eq_length.mp (Nat.le_antisymm List.countP_le_length ?_)
          rw [List.length_append, List.length_singleton]
          omega
        · rw [List.take_append_of_le_length hbefore]
          exact hgood hbefore

theorem deserved_of_tame (hreg : A.Regular k h) (htame : A.Tame k h) :
    A.Deserved k h := by
  intro as a has hfire
  obtain ⟨ht, hlast⟩ := (hreg as a has).mp hfire
  obtain ⟨hlt, hgood⟩ := htame (as ++ [a]) has
  rw [countP_good]
  rw [ticks_of_tick ht] at hlt hgood ⊢
  rw [List.length_append, List.length_singleton] at hlt hgood
  have hlen : (A.ticks as).length + 1 = k := by
    rcases Nat.lt_or_ge (A.ticks as).length k with hshort | hlong
    · rwa [Nat.mod_eq_of_lt hshort] at hlast
    · rw [Nat.mod_eq_sub_mod hlong, Nat.mod_eq_of_lt (by omega)] at hlast
      omega
  rw [List.take_of_length_le (by simp [hlen])] at hgood
  rw [List.countP_eq_length.mpr (hgood (by omega))]
  simp [hlen]

theorem once_of_tame (hk : 0 < k) (hreg : A.Regular k h) (htame : A.Tame k h) : A.Once h := by
  intro as has
  rw [Regular.countP_fire hk (fun cs c hcs => hreg cs c (hcs.trans has))]
  have hlt : (A.ticks as).length / k < 2 :=
    Nat.div_lt_of_lt_mul (Nat.mul_comm 2 k ▸ (htame as has).1)
  exact Nat.le_of_lt_succ hlt

/-- **Which histories a regular alarm serves.** -/
theorem served_iff (hk : 0 < k) (hreg : A.Regular k h) :
    A.Deserved k h ∧ A.Once h ↔ A.Tame k h :=
  ⟨fun hserved => tame_of_once hk hreg hserved.1 hserved.2,
    fun htame => ⟨deserved_of_tame hreg htame, once_of_tame hk hreg htame⟩⟩

end Alarm
end EveryNth
