import NeuStack.GuardedRun

/-! # One report on every period

Periods are closed one after the other, and reports are made, each on the period
closed last.  A journal is **complete** if every closed period has exactly one
report (the last one may still wait for its own) and every report says what it
should.

A journal stays complete as long as no period is closed before the last one has
its report, and no second report is made on it (`Due`); and a journal that was
incomplete once stays so (`complete_run_iff`).
-/
namespace PeriodReports

/-- What can happen. -/
inductive Event (L : Type)
  | close
  | report (label : L)
  deriving DecidableEq, Repr

/-- The number of closed periods, and the reports: the number of the period (0 for a
report made before the first was closed), and what it says. -/
structure Journal (L : Type) where
  closed : Nat := 0
  reports : List (Nat × L) := []
  deriving DecidableEq, Repr

namespace Journal
variable {L : Type}

def step (j : Journal L) : Event L → Journal L
  | .close => { j with closed := j.closed + 1 }
  | .report label => { j with reports := j.reports ++ [(j.closed, label)] }

/-- The number of reports on a period. -/
def on (j : Journal L) (n : Nat) : Nat := j.reports.countP (·.1 = n)

/-- No report is on a period that is still open. -/
def Dated (j : Journal L) : Prop := ∀ r ∈ j.reports, r.1 ≤ j.closed

structure Complete (good : L → Prop) (j : Journal L) : Prop where
  label : ∀ r ∈ j.reports, good r.2
  once : ∀ n, 0 < n → n < j.closed → j.on n = 1
  last : 0 < j.closed → j.on j.closed ≤ 1

/-- The event comes in time: a period is closed when the one before has its report,
and a report is made when the last period has none. -/
def Due (good : L → Prop) (j : Journal L) : Event L → Prop
  | .close => j.closed = 0 ∨ j.on j.closed = 1
  | .report label => good label ∧ (j.closed = 0 ∨ j.on j.closed = 0)

variable {good : L → Prop} {j : Journal L} {e : Event L}

theorem on_report (label : L) (n : Nat) :
    (j.step (.report label)).on n = j.on n + if j.closed = n then 1 else 0 := by
  rw [on, step, List.countP_append, List.countP_singleton]
  simp only [decide_eq_true_eq, on]

theorem on_report_last (label : L) : (j.step (.report label)).on j.closed = j.on j.closed + 1 := by
  rw [on_report, if_pos rfl]

theorem on_report_earlier (label : L) {n : Nat} (hn : n < j.closed) :
    (j.step (.report label)).on n = j.on n := by
  rw [on_report, if_neg (Nat.ne_of_gt hn), Nat.add_zero]

theorem Dated.step (h : j.Dated) (e : Event L) : (j.step e).Dated := by
  cases e with
  | close => exact fun r hr => Nat.le_succ_of_le (h r hr)
  | report label =>
    intro r hr
    rcases List.mem_append.mp hr with hold | hnew
    · exact h r hold
    · rw [List.mem_singleton.mp hnew]
      exact Nat.le_refl _

theorem Dated.on_eq_zero (h : j.Dated) {n : Nat} (hn : j.closed < n) : j.on n = 0 := by
  refine List.countP_eq_zero.mpr fun r hr => ?_
  rw [decide_eq_true_eq]
  have := h r hr
  omega

theorem complete_empty : Complete good ({} : Journal L) where
  label := fun _ hr => nomatch hr
  once := fun n _ hn => absurd hn (Nat.not_lt_zero n)
  last := fun h => absurd h (Nat.lt_irrefl 0)

theorem dated_empty : ({} : Journal L).Dated := fun _ hr => nomatch hr

theorem Complete.close_iff (hdated : j.Dated) (h : Complete good j) :
    Complete good (j.step .close) ↔ Due good j .close := by
  constructor
  · intro hnext
    rcases Nat.eq_zero_or_pos j.closed with hzero | hpos
    · exact .inl hzero
    · exact .inr (hnext.once j.closed hpos (Nat.lt_succ_self _))
  · intro hdue
    refine ⟨h.label, fun n hpos hn => ?_, fun _ => ?_⟩
    · rcases Nat.lt_succ_iff_lt_or_eq.mp hn with hlt | rfl
      · exact h.once n hpos hlt
      · exact hdue.resolve_left (Nat.ne_of_gt hpos)
    · have hnone : j.on (j.closed + 1) = 0 := hdated.on_eq_zero (Nat.lt_succ_self _)
      exact hnone ▸ Nat.zero_le 1

theorem Complete.report_iff (h : Complete good j) (label : L) :
    Complete good (j.step (.report label)) ↔ Due good j (.report label) := by
  constructor
  · intro hnext
    refine ⟨hnext.label _ (List.mem_append_right _ (List.mem_singleton_self _)), ?_⟩
    rcases Nat.eq_zero_or_pos j.closed with hzero | hpos
    · exact .inl hzero
    · have hlast : (j.step (.report label)).on j.closed ≤ 1 := hnext.last hpos
      rw [on_report_last] at hlast
      exact .inr (Nat.le_zero.mp (Nat.le_of_succ_le_succ hlast))
  · rintro ⟨hlabel, hfirst⟩
    refine ⟨fun r hr => ?_, fun n hpos hn => ?_, fun hpos => ?_⟩
    · rcases List.mem_append.mp hr with hold | hnew
      · exact h.label r hold
      · rw [List.mem_singleton.mp hnew]
        exact hlabel
    · exact (on_report_earlier (j := j) label hn).trans (h.once n hpos hn)
    · have hone : (j.step (.report label)).on j.closed = 1 := by
        rw [on_report_last, hfirst.resolve_left (Nat.ne_of_gt hpos)]
      exact Nat.le_of_eq hone

theorem Complete.step_iff (hdated : j.Dated) (h : Complete good j) (e : Event L) :
    Complete good (j.step e) ↔ Due good j e := by
  cases e with
  | close => exact h.close_iff hdated
  | report label => exact h.report_iff label

/-- What is missing or wrong stays so. -/
theorem Complete.of_step (h : Complete good (j.step e)) : Complete good j := by
  cases e with
  | close =>
    refine ⟨h.label, fun n hpos hn => h.once n hpos (Nat.lt_succ_of_lt hn), fun hpos => ?_⟩
    exact Nat.le_of_eq (h.once j.closed hpos (Nat.lt_succ_self _))
  | report label =>
    refine ⟨fun r hr => h.label r (List.mem_append_left _ hr), fun n hpos hn => ?_, fun hpos => ?_⟩
    · exact (on_report_earlier (j := j) label hn).symm.trans (h.once n hpos hn)
    · have hlast : (j.step (.report label)).on j.closed ≤ 1 := h.last hpos
      rw [on_report_last] at hlast
      exact Nat.le_of_succ_le hlast

theorem Complete.of_run {es : List (Event L)} (h : Complete good (GuardedRun.run step j es)) :
    Complete good j := by
  induction es generalizing j with
  | nil => exact h
  | cons e es ih => exact (ih h).of_step

/-- **A journal stays complete exactly as long as every event comes in time.** -/
theorem complete_run_iff (hdated : j.Dated) (h : Complete good j) (es : List (Event L)) :
    Complete good (GuardedRun.run step j es) ↔ GuardedRun.Meets step (Due good) j es := by
  induction es generalizing j with
  | nil => exact iff_of_true h trivial
  | cons e es ih =>
    constructor
    · intro hrun
      have hnext : Complete good (j.step e) := Complete.of_run hrun
      exact ⟨(h.step_iff hdated e).mp hnext, (ih (hdated.step e) hnext).mp hrun⟩
    · rintro ⟨hdue, hrest⟩
      exact (ih (hdated.step e) ((h.step_iff hdated e).mpr hdue)).mpr hrest

theorem Dated.run (h : j.Dated) (es : List (Event L)) : (GuardedRun.run Journal.step j es).Dated :=
  GuardedRun.run_invariant (fun _ e hj => hj.step e) h es

end Journal
end PeriodReports
