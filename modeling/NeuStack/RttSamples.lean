import NeuStack.Retransmission

/-! # Genuine RTT samples

A `Happening` is what the network sees of a connection, with the times: segments going
out, for the first time or again, and acknowledgements coming in, each with the sample
`process_ack` takes from it.  A sample is **genuine** if it is the time from the only
transmission of a segment to the first acknowledgement of it (`Genuine`).

An entry of the retransmission queue is *tracked* in a log as long as a sample of its
segment would be (`Tracked`); the entry that is being measured is kept so by whatever
spares it (`Measured`).
-/
namespace NeuStack
variable {σ : Type}

/-! ## The loop of `process_ack` -/

/-- The entries an acknowledgement removes. -/
def removed (ackNum : BitVec 32) (q : List RetransmitEntry) : List RetransmitEntry :=
  q.takeWhile fun e => seqLe e.seqEnd ackNum

/-- What the loop passes to `update_rtt`, if it calls it. -/
def rttSample (now : Nat) (ackNum : BitVec 32) (r : TCBRtt) : List RetransmitEntry → Option UInt32
  | [] => none
  | e :: q =>
    if seqLe e.seqEnd ackNum then
      if r.rttMeasuring && seqLe r.rttSeq e.seqEnd && e.retransmitCount == 0 then
        some (UInt32.ofNat (now - r.rttSendTime))
      else rttSample now ackNum r q
    else none

section Loop
variable {now : Nat} {ackNum : BitVec 32} {r : TCBRtt} {q : List RetransmitEntry}
  {e : RetransmitEntry}

theorem removed_cons (hend : seqLe e.seqEnd ackNum = true) :
    removed ackNum (e :: q) = e :: removed ackNum q := List.takeWhile_cons_of_pos hend

theorem removed_of_not (hend : ¬ seqLe e.seqEnd ackNum = true) : removed ackNum (e :: q) = [] :=
  List.takeWhile_cons_of_neg hend

theorem seqLe_of_mem_removed (he : e ∈ removed ackNum q) : seqLe e.seqEnd ackNum = true := by
  have hall : (removed ackNum q).all (fun e => seqLe e.seqEnd ackNum) = true := List.all_takeWhile
  exact List.all_eq_true.mp hall e he

theorem rttSample_of_idle (hidle : r.rttMeasuring = false) : rttSample now ackNum r q = none := by
  induction q with
  | nil => rfl
  | cons e q ih =>
    rw [rttSample, hidle, ih]
    split <;> rfl

theorem trimQueue_of_idle (established : Bool) (hidle : r.rttMeasuring = false) :
    (trimQueue now established ackNum r q).1 = r := by
  induction q with
  | nil => rfl
  | cons e q ih =>
    rw [trimQueue]
    split
    · dsimp only
      rw [hidle]
      exact ih
    · split <;> rfl

/-- **The sample is what the loop feeds the estimate with.** -/
theorem trimQueue_rtt (established : Bool) :
    (trimQueue now established ackNum r q).1 = match rttSample now ackNum r q with
      | none => r
      | some rttUs => { r.updateRtt established rttUs with rttMeasuring := false } := by
  induction q with
  | nil => rfl
  | cons e q ih =>
    rw [trimQueue, rttSample]
    split
    · dsimp only
      split
      · exact trimQueue_of_idle established rfl
      · exact ih
    · split <;> rfl

/-- No entry that is removed gives a sample. -/
theorem rttSample_eq_none (h : ∀ e ∈ removed ackNum q, seqLe r.rttSeq e.seqEnd = true →
    e.retransmitCount ≠ 0) : rttSample now ackNum r q = none := by
  induction q with
  | nil => rfl
  | cons e q ih =>
    rw [rttSample]
    split
    · rename_i hend
      rw [removed_cons hend] at h
      obtain ⟨hhead, hrest⟩ := List.forall_mem_cons.mp h
      rw [if_neg, ih hrest]
      rw [Bool.and_eq_true, Bool.and_eq_true, beq_iff_eq]
      exact fun hsample => hhead hsample.1.2 hsample.2
    · rfl

/-- One does. -/
theorem rttSample_eq_some (hmeasuring : r.rttMeasuring = true) (he : e ∈ removed ackNum q)
    (hle : seqLe r.rttSeq e.seqEnd = true) (hcount : e.retransmitCount = 0) :
    rttSample now ackNum r q = some (UInt32.ofNat (now - r.rttSendTime)) := by
  induction q with
  | nil => cases he
  | cons e' q ih =>
    rw [rttSample]
    by_cases hend : seqLe e'.seqEnd ackNum = true
    · rw [if_pos hend]
      split
      · rfl
      · rename_i hno
        rw [removed_cons hend] at he
        rcases List.mem_cons.mp he with rfl | he
        · rw [hmeasuring, hle, hcount] at hno
          exact absurd rfl hno
        · exact ih he
    · rw [removed_of_not hend] at he
      cases he

theorem measuring_of_rttSample {rttUs : UInt32} (h : rttSample now ackNum r q = some rttUs) :
    r.rttMeasuring = true := by
  rw [← Bool.not_eq_false]
  intro hidle
  rw [rttSample_of_idle hidle] at h
  cases h

/-- An entry that is neither removed nor cut stays in the queue. -/
theorem mem_trimQueue_of_spared (established : Bool) (he : e ∈ q) (hnot : e ∉ removed ackNum q)
    (hcut : seqLt e.seqStart ackNum = false) :
    e ∈ (trimQueue now established ackNum r q).2 := by
  induction q generalizing r with
  | nil => cases he
  | cons e' q ih =>
    rw [trimQueue]
    split
    · rename_i hend
      rw [removed_cons hend] at hnot
      obtain ⟨hne, hnot⟩ := not_or.mp (mt List.mem_cons.mpr hnot)
      exact ih ((List.mem_cons.mp he).resolve_left hne) hnot
    · split
      · rename_i hlt
        rcases List.mem_cons.mp he with rfl | he
        · rw [hlt] at hcut
          cases hcut
        · exact List.mem_cons_of_mem _ he
      · exact he

end Loop

/-! ## What the network sees -/

/-- A segment with the numbers from `start` to before `stop` goes out; its first number
goes out again; an acknowledgement comes in, and gives a sample or not. -/
inductive Happening where
  | sent (time : Nat) (start stop : BitVec 32)
  | resent (start : BitVec 32)
  | acked (time : Nat) (ackNum : BitVec 32) (rttUs : Option UInt32)
  deriving DecidableEq, Repr

/-- What the network sees of an event at a time.  A segment without numbers is of no
interest; a probe shows a byte that is not sent yet. -/
def Event.happening (time : Nat) : Event → Option Happening
  | .sent _ .segment seg =>
    if 0 < seg.segLen then
      some (.sent time seg.seqNum (seg.seqNum + BitVec.ofNat 32 seg.segLen))
    else none
  | .sent _ .raw seg => some (.resent seg.seqNum)
  | _ => none

theorem Event.happening_ne_acked (ev : Event) (time t : Nat) (ackNum : BitVec 32)
    (rttUs : Option UInt32) : ev.happening time ≠ some (.acked t ackNum rttUs) := by
  unfold Event.happening
  split
  · split <;> exact nofun
  · exact nofun
  · exact nofun

def happenings (time : Nat) (evs : List Event) : List Happening :=
  evs.filterMap (·.happening time)

/-- It neither sends the segment that starts at `start` again nor acknowledges any of
its numbers. -/
def Happening.Spares (start : BitVec 32) : Happening → Prop
  | .sent .. => True
  | .resent start' => start' ≠ start
  | .acked _ ackNum _ => seqLt start ackNum = false

/-- **A genuine sample**: the time since a segment went out that is acknowledged now, all
of it, and since then was neither sent again nor acknowledged in part. -/
def Genuine (log : List Happening) (time : Nat) (ackNum : BitVec 32) (rttUs : UInt32) : Prop :=
  ∃ before sentAt start stop since, log = before ++ .sent sentAt start stop :: since ∧
    rttUs.toNat = time - sentAt ∧ seqLe stop ackNum = true ∧ ∀ x ∈ since, x.Spares start

section Computing
variable {log : List Happening} {time : Nat} {ackNum : BitVec 32} {rttUs : UInt32}

instance (start : BitVec 32) : DecidablePred (Happening.Spares start)
  | .sent .. => inferInstanceAs (Decidable True)
  | .resent start' => inferInstanceAs (Decidable (start' ≠ start))
  | .acked _ ackNum _ => inferInstanceAs (Decidable (seqLt start ackNum = false))

/-- The sample is of this segment, and `since` it went out it was spared. -/
def Happening.Explains (time : Nat) (ackNum : BitVec 32) (rttUs : UInt32)
    (since : List Happening) : Happening → Prop
  | .sent sentAt start stop => rttUs.toNat = time - sentAt ∧ seqLe stop ackNum = true ∧
      ∀ x ∈ since, x.Spares start
  | _ => False

instance (since : List Happening) :
    DecidablePred (Happening.Explains time ackNum rttUs since)
  | .sent .. => inferInstanceAs (Decidable (_ ∧ _ ∧ _))
  | .resent _ => inferInstanceAs (Decidable False)
  | .acked .. => inferInstanceAs (Decidable False)

theorem not_genuine_nil : ¬ Genuine [] time ackNum rttUs := by
  rintro ⟨before, sentAt, start, stop, since, hlog, -⟩
  exact absurd hlog.symm (List.append_ne_nil_of_right_ne_nil _ (List.cons_ne_nil _ _))

theorem genuine_cons {x : Happening} : Genuine (x :: log) time ackNum rttUs ↔
    x.Explains time ackNum rttUs log ∨ Genuine log time ackNum rttUs := by
  constructor
  · rintro ⟨before, sentAt, start, stop, since, hlog, hsample⟩
    cases before with
    | nil =>
      cases hlog
      exact Or.inl hsample
    | cons y before =>
      cases hlog
      exact Or.inr ⟨before, sentAt, start, stop, since, rfl, hsample⟩
  · rintro (hx | ⟨before, sentAt, start, stop, since, rfl, hsample⟩)
    · cases x with
      | sent sentAt start stop => exact ⟨[], sentAt, start, stop, log, rfl, hx⟩
      | resent => exact hx.elim
      | acked => exact hx.elim
    · exact ⟨x :: before, sentAt, start, stop, since, rfl, hsample⟩

instance decidableGenuine :
    (log : List Happening) → Decidable (Genuine log time ackNum rttUs)
  | [] => .isFalse not_genuine_nil
  | _ :: log =>
    have := decidableGenuine log
    decidable_of_iff _ genuine_cons.symm

end Computing

/-- All samples are. -/
def AllGenuine (log : List Happening) : Prop :=
  ∀ before time ackNum rttUs, before ++ [.acked time ackNum (some rttUs)] <+: log →
    Genuine before time ackNum rttUs

theorem allGenuine_nil : AllGenuine [] := by
  intro before time ackNum rttUs hprefix
  exact absurd (List.prefix_nil.mp hprefix) (List.append_ne_nil_of_right_ne_nil _ (by simp))

theorem AllGenuine.concat {log : List Happening} {x : Happening} (h : AllGenuine log)
    (hx : ∀ time ackNum rttUs, x = .acked time ackNum (some rttUs) →
      Genuine log time ackNum rttUs) : AllGenuine (log ++ [x]) := by
  intro before time ackNum rttUs hprefix
  rcases List.prefix_concat_iff.mp hprefix with heq | hprefix
  · obtain ⟨rfl, hlast⟩ := List.append_inj' heq rfl
    cases hlast
    exact hx time ackNum rttUs rfl
  · exact h before time ackNum rttUs hprefix

/-- Sending takes no sample. -/
theorem AllGenuine.happenings {log : List Happening} (h : AllGenuine log) (time : Nat)
    (evs : List Event) : AllGenuine (log ++ happenings time evs) := by
  induction evs generalizing log with
  | nil => rwa [NeuStack.happenings, List.filterMap_nil, List.append_nil]
  | cons ev evs ih =>
    rw [NeuStack.happenings]
    cases hev : ev.happening time with
    | none =>
      rw [List.filterMap_cons_none hev]
      exact ih h
    | some x =>
      rw [List.filterMap_cons_some hev, List.append_cons]
      exact ih (h.concat fun t k v hx => absurd (hx ▸ hev) (ev.happening_ne_acked time t k _))

/-! ## The measurement -/

/-- The segment of the entry went out, and was spared since. -/
def RetransmitEntry.Tracked (log : List Happening) (e : RetransmitEntry) : Prop :=
  ∃ before since, log = before ++ .sent e.sendTime e.seqStart e.seqEnd :: since ∧
    ∀ x ∈ since, x.Spares e.seqStart

theorem RetransmitEntry.Tracked.append {log xs : List Happening} {e : RetransmitEntry}
    (h : e.Tracked log) (hxs : ∀ x ∈ xs, x.Spares e.seqStart) : e.Tracked (log ++ xs) := by
  obtain ⟨before, since, rfl, hsince⟩ := h
  refine ⟨before, since ++ xs, ?_, fun x hx => ?_⟩
  · rw [List.append_assoc, List.cons_append]
  · exact (List.mem_append.mp hx).elim (hsince x) (hxs x)

/-- The entry is of the segment that is being measured. -/
def TCBRtt.Measures (r : TCBRtt) (e : RetransmitEntry) : Prop :=
  e.seqStart = r.rttSeq ∧ e.sendTime = r.rttSendTime

/-- While a measurement runs, an entry it measures is tracked, unless there is none. -/
def Measured (r : TCBRtt) (q : List RetransmitEntry) (log : List Happening) : Prop :=
  r.rttMeasuring = true → (∃ e ∈ q, r.Measures e ∧ e.Tracked log) ∨ ∀ e ∈ q, ¬ r.Measures e

theorem measured_nil (r : TCBRtt) (log : List Happening) : Measured r [] log :=
  fun _ => Or.inr fun _ he => nomatch he

theorem measured_of_idle {r : TCBRtt} (hidle : r.rttMeasuring = false) (q : List RetransmitEntry)
    (log : List Happening) : Measured r q log := by
  intro hmeasuring
  rw [hidle] at hmeasuring
  cases hmeasuring

section Measuring
variable {r : TCBRtt} {q : List RetransmitEntry} {e : RetransmitEntry} {log : List Happening}

theorem Measured.spared {xs : List Happening} (h : Measured r q log)
    (hxs : r.rttMeasuring = true → ∀ x ∈ xs, x.Spares r.rttSeq) : Measured r q (log ++ xs) := by
  intro hmeasuring
  refine (h hmeasuring).imp ?_ id
  rintro ⟨e, he, hmeasures, htracked⟩
  exact ⟨e, he, hmeasures, htracked.append (hmeasures.1 ▸ hxs hmeasuring)⟩

/-- The retransmission timer of the head has no say in it. -/
theorem Measured.head (h : Measured r (e :: q) log) (count timeout : Nat) :
    Measured r ({ e with retransmitCount := count, timeout := timeout } :: q) log := by
  intro hmeasuring
  rcases h hmeasuring with ⟨e', he', hmeasured⟩ | hnone
  · refine Or.inl ?_
    rcases List.mem_cons.mp he' with rfl | he'
    · exact ⟨_, List.mem_cons_self .., hmeasured⟩
    · exact ⟨e', List.mem_cons_of_mem _ he', hmeasured⟩
  · obtain ⟨hhead, hrest⟩ := List.forall_mem_cons.mp hnone
    exact Or.inr (List.forall_mem_cons.mpr ⟨hhead, hrest⟩)

/-- A segment that goes out is tracked; it is measured if none was. -/
theorem Measured.enqueue (h : Measured r q log) (e : RetransmitEntry) :
    Measured (r.measure e.seqStart e.sendTime) (q ++ [e])
      (log ++ [.sent e.sendTime e.seqStart e.seqEnd]) := by
  have hself : e ∈ q ++ [e] := List.mem_append_right _ (List.mem_singleton_self e)
  have htracked : e.Tracked (log ++ [.sent e.sendTime e.seqStart e.seqEnd]) :=
    ⟨log, [], rfl, fun _ hx => nomatch hx⟩
  intro hmeasuring
  cases hold : r.rttMeasuring with
  | false =>
    rw [TCBRtt.measure, hold, if_neg Bool.false_ne_true]
    exact Or.inl ⟨e, hself, ⟨rfl, rfl⟩, htracked⟩
  | true =>
    rw [TCBRtt.measure, hold, if_pos rfl]
    rcases h hold with ⟨e', he', hmeasures, htracked'⟩ | hnone
    · refine Or.inl ⟨e', List.mem_append_left _ he', hmeasures, htracked'.append fun x hx => ?_⟩
      rw [List.mem_singleton.mp hx]
      exact trivial
    · by_cases hmeasures : r.Measures e
      · exact Or.inl ⟨e, hself, hmeasures, htracked⟩
      · refine Or.inr fun e' he' => ?_
        rcases List.mem_append.mp he' with he' | he'
        · exact hnone e' he'
        · rwa [List.mem_singleton.mp he']

end Measuring

end NeuStack
