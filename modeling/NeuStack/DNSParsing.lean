import NeuStack.DNSMessages

/-! # Parsing any response

`decode_name` follows pointers that anyone may have written: to themselves, to each other, behind
the end.  A round of its loop ends it (`NameEnds`) or leads to another cursor (`NameTurns`), which
has followed a pointer more, of ten, or is further on in the message; so the loop ends
(`decodeLoop_run`), and all that is said about its result is said by induction over its rounds
(`NameRun`).  Nothing outside the message is read on the way, by it or by the parser around it
(`parseResponse_safe`).
-/
namespace NeuStack
open NetworkOrder

namespace DNSMessages
variable {mem : Memory} {len : Nat} {c d : NameCursor}

/-! ## Rounds -/

/-- Where the pointer at `offset` leads. -/
def pointerAt (mem : Memory) (offset : Nat) : Nat :=
  (mem offset &&& 0x3F).toNat * 256 + (mem (offset + 1)).toNat

/-- The cursor behind a pointer. -/
def NameCursor.jump (mem : Memory) (c : NameCursor) : NameCursor :=
  { c with
    offset := pointerAt mem c.offset
    jumps := c.jumps + 1
    resume := c.resume.getD (c.offset + 2) }

/-- The cursor behind a label. -/
def NameCursor.take (mem : Memory) (c : NameCursor) : NameCursor :=
  { c with
    offset := c.offset + 1 + (mem c.offset).toNat
    first := false
    result := c.result ++ (if c.first then [] else [dot]) ++
      mem.slice (c.offset + 1) (mem c.offset).toNat }

/-- A round that goes on. -/
inductive NameTurns (mem : Memory) (len : Nat) (c : NameCursor) : NameCursor → Prop
  | pointer (hin : c.offset + 1 < len) (hptr : mem c.offset &&& 0xC0 = 0xC0)
      (hfew : c.jumps < 10) : NameTurns mem len c (c.jump mem)
  | label (hin : c.offset < len) (hplain : mem c.offset &&& 0xC0 ≠ 0xC0) (hpos : mem c.offset ≠ 0)
      (hfits : c.offset + 1 + (mem c.offset).toNat ≤ len) : NameTurns mem len c (c.take mem)

/-- A round that ends the loop. -/
inductive NameEnds (mem : Memory) (len : Nat) (c : NameCursor) : NameCursor → Prop
  | outside (hout : len ≤ c.offset) : NameEnds mem len c c
  | halfPointer (hin : c.offset < len) (hptr : mem c.offset &&& 0xC0 = 0xC0)
      (hout : len ≤ c.offset + 1) : NameEnds mem len c c
  | tooMany (hin : c.offset + 1 < len) (hptr : mem c.offset &&& 0xC0 = 0xC0)
      (hmany : 10 ≤ c.jumps) : NameEnds mem len c (c.jump mem)
  | zero (hin : c.offset < len) (hzero : mem c.offset = 0) :
      NameEnds mem len c { c with offset := c.offset + 1 }
  | truncated (hin : c.offset < len) (hplain : mem c.offset &&& 0xC0 ≠ 0xC0)
      (hpos : mem c.offset ≠ 0) (hout : len < c.offset + 1 + (mem c.offset).toNat) :
      NameEnds mem len c { c with offset := c.offset + 1 }

/-- The loop, with the number of its rounds. -/
inductive NameRun (mem : Memory) (len : Nat) : Nat → NameCursor → NameCursor → Prop
  | done {c d : NameCursor} (h : NameEnds mem len c d) : NameRun mem len 1 c d
  | turn {n : Nat} {c d e : NameCursor} (h : NameTurns mem len c d)
      (hrest : NameRun mem len n d e) : NameRun mem len (n + 1) c e

theorem zero_plain {a : UInt8} (h : a = 0) : a &&& 0xC0 ≠ 0xC0 := by
  rw [h]
  decide

theorem ends_or_turns (mem : Memory) (len : Nat) (c : NameCursor) :
    (∃ d, NameEnds mem len c d) ∨ ∃ d, NameTurns mem len c d := by
  by_cases hin : c.offset < len
  · by_cases hptr : mem c.offset &&& 0xC0 = 0xC0
    · by_cases hwhole : c.offset + 1 < len
      · by_cases hfew : c.jumps < 10
        · exact .inr ⟨_, .pointer hwhole hptr hfew⟩
        · exact .inl ⟨_, .tooMany hwhole hptr (Nat.le_of_not_lt hfew)⟩
      · exact .inl ⟨_, .halfPointer hin hptr (Nat.le_of_not_lt hwhole)⟩
    · by_cases hzero : mem c.offset = 0
      · exact .inl ⟨_, .zero hin hzero⟩
      · by_cases hfits : c.offset + 1 + (mem c.offset).toNat ≤ len
        · exact .inr ⟨_, .label hin hptr hzero hfits⟩
        · exact .inl ⟨_, .truncated hin hptr hzero (Nat.lt_of_not_le hfits)⟩
  · exact .inl ⟨_, .outside (Nat.le_of_not_lt hin)⟩

/-- What a round computes. -/
theorem decodeLoop_value (mem : Memory) (len fuel : Nat) (c : NameCursor) :
    (decodeLoop mem len (fuel + 1) c).value =
      if len ≤ c.offset then c
      else if mem c.offset &&& 0xC0 = 0xC0 then
        if len ≤ c.offset + 1 then c
        else if 10 < c.jumps + 1 then c.jump mem
        else (decodeLoop mem len fuel (c.jump mem)).value
      else if mem c.offset = 0 then { c with offset := c.offset + 1 }
      else if len < c.offset + 1 + (mem c.offset).toNat then { c with offset := c.offset + 1 }
      else (decodeLoop mem len fuel (c.take mem)).value := by
  rw [decodeLoop, Scan.value_ite]
  refine ite_congr rfl (fun _ => rfl) fun _ => ?_
  rw [Scan.value_bind, Scan.value_read, Scan.value_ite]
  refine ite_congr rfl (fun _ => ?_) fun _ => ?_
  · rw [Scan.value_ite]
    refine ite_congr rfl (fun _ => rfl) fun _ => ?_
    rw [Scan.value_bind, Scan.value_ite]
    rfl
  · rw [Scan.value_ite]
    refine ite_congr rfl (fun _ => rfl) fun _ => ?_
    rw [Scan.value_ite]
    refine ite_congr rfl (fun _ => rfl) fun _ => ?_
    rw [Scan.value_bind]
    rfl

theorem NameEnds.value (h : NameEnds mem len c d) (fuel : Nat) :
    (decodeLoop mem len (fuel + 1) c).value = d := by
  rw [decodeLoop_value]
  cases h with
  | outside hout => rw [if_pos hout]
  | halfPointer hin hptr hout => rw [if_neg (by omega), if_pos hptr, if_pos hout]
  | tooMany hin hptr hmany =>
    rw [if_neg (by omega), if_pos hptr, if_neg (by omega), if_pos (by omega)]
  | zero hin hzero => rw [if_neg (by omega), if_neg (zero_plain hzero), if_pos hzero]
  | truncated hin hplain hpos hout =>
    rw [if_neg (by omega), if_neg hplain, if_neg hpos, if_pos hout]

theorem NameTurns.value (h : NameTurns mem len c d) (fuel : Nat) :
    (decodeLoop mem len (fuel + 1) c).value = (decodeLoop mem len fuel d).value := by
  rw [decodeLoop_value]
  cases h with
  | pointer hin hptr hfew =>
    rw [if_neg (by omega), if_pos hptr, if_neg (by omega), if_neg (by omega)]
  | label hin hplain hpos hfits =>
    rw [if_neg (by omega), if_neg hplain, if_neg hpos, if_neg (by omega)]

/-! ## The loop ends -/

/-- What is left to do: pointers to follow first, then bytes to pass. -/
def NameCursor.left (len : Nat) (c : NameCursor) : Nat :=
  (10 - c.jumps) * (len + 1) + (len - c.offset)

theorem NameTurns.left_lt (h : NameTurns mem len c d) : d.left len < c.left len := by
  cases h with
  | pointer hin hptr hfew =>
    obtain ⟨n, hn⟩ := Nat.exists_eq_add_of_lt hfew
    have hbefore : 10 - c.jumps = n + 1 := by omega
    have hafter : 10 - (c.jumps + 1) = n := by omega
    show (10 - (c.jumps + 1)) * (len + 1) + (len - pointerAt mem c.offset) < _
    rw [NameCursor.left, hbefore, hafter, Nat.succ_mul]
    omega
  | label hin hplain hpos hfits =>
    show (10 - c.jumps) * (len + 1) + (len - (c.offset + 1 + (mem c.offset).toNat)) < _
    rw [NameCursor.left]
    omega

theorem exists_run (mem : Memory) (len : Nat) (c : NameCursor) :
    ∃ n d, n ≤ c.left len + 1 ∧ NameRun mem len n c d := by
  generalize hleft : c.left len = k
  induction k using Nat.strongRecOn generalizing c with
  | ind k ih =>
    obtain ⟨d, hends⟩ | ⟨d, hturns⟩ := ends_or_turns mem len c
    · exact ⟨1, d, Nat.le_add_left .., .done hends⟩
    · have hlt := hturns.left_lt
      obtain ⟨n, e, hn, hrun⟩ := ih (d.left len) (hleft ▸ hlt) d rfl
      exact ⟨n + 1, e, by omega, .turn hturns hrun⟩

theorem NameRun.value {n : Nat} (h : NameRun mem len n c d) {fuel : Nat} (hfuel : n ≤ fuel) :
    (decodeLoop mem len fuel c).value = d := by
  induction h generalizing fuel with
  | done hends =>
    obtain ⟨k, rfl⟩ := Nat.exists_eq_add_of_le' hfuel
    exact hends.value k
  | turn hturns _ ih =>
    obtain ⟨k, rfl⟩ := Nat.exists_eq_add_of_le' (Nat.le_trans (Nat.le_add_left 1 _) hfuel)
    rw [hturns.value]
    exact ih (Nat.le_of_succ_le_succ hfuel)

/-- **The loop ends**, and more rounds would change nothing. -/
theorem decodeLoop_run (mem : Memory) (len offset : Nat) : ∃ n c, n ≤ 11 * (len + 1) ∧
    NameRun mem len n { offset } c ∧
      ∀ fuel, n ≤ fuel → (decodeLoop mem len fuel { offset }).value = c := by
  obtain ⟨n, c, hn, hrun⟩ := exists_run mem len { offset }
  refine ⟨n, c, ?_, hrun, fun fuel => hrun.value⟩
  have hleft : NameCursor.left len { offset } = 10 * (len + 1) + (len - offset) := rfl
  omega

/-- What the loop comes to is what `decode_name` returns. -/
theorem NameRun.decodeName_eq {n offset : Nat} (h : NameRun mem len n { offset } d) :
    (decodeName mem len offset).value = (d.result, d.resume.getD d.offset) := by
  obtain ⟨k, c, hk, -, hvalue⟩ := decodeLoop_run mem len offset
  have hsame : c = d := by
    rw [← hvalue (k + n) (Nat.le_add_right k n), h.value (Nat.le_add_left n k)]
  rw [decodeName, Scan.value_bind, hvalue _ hk, hsame]
  rfl

/-- The eleventh pointer is the last. -/
theorem NameRun.jumps_le {n : Nat} (h : NameRun mem len n c d) (hc : c.jumps ≤ 10) :
    d.jumps ≤ 11 := by
  induction h with
  | done hends => cases hends <;> first | exact Nat.le_succ_of_le hc | exact Nat.succ_le_succ hc
  | turn hturns _ ih =>
    cases hturns with
    | pointer _ _ hfew => exact ih hfew
    | label => exact ih hc

/-! ## The name -/

theorem NameTurns.bounded (h : NameTurns mem len c d)
    (hc : c.jumps ≤ 10 ∧ c.result.length + (len - c.offset) ≤ (c.jumps + 1) * len) :
    d.jumps ≤ 10 ∧ d.result.length + (len - d.offset) ≤ (d.jumps + 1) * len := by
  obtain ⟨hjumps, hlength⟩ := hc
  cases h with
  | pointer hin hptr hfew =>
    refine ⟨hfew, ?_⟩
    show c.result.length + (len - pointerAt mem c.offset) ≤ (c.jumps + 1 + 1) * len
    rw [Nat.succ_mul]
    omega
  | label hin hplain hpos hfits =>
    refine ⟨hjumps, ?_⟩
    have hdot : (if c.first then ([] : List UInt8) else [dot]).length ≤ 1 := by
      split
      · exact Nat.zero_le 1
      · exact Nat.le_refl 1
    show (_ ++ _ ++ _ : List UInt8).length + (len - (c.offset + 1 + (mem c.offset).toNat)) ≤
      (c.jumps + 1) * len
    rw [List.length_append, List.length_append, Memory.length_slice]
    omega

/-- Every byte of the message is passed once for each pointer, and once without. -/
theorem NameRun.length_le {n : Nat} (h : NameRun mem len n c d)
    (hc : c.jumps ≤ 10 ∧ c.result.length + (len - c.offset) ≤ (c.jumps + 1) * len) :
    d.result.length ≤ 11 * len := by
  induction h with
  | @done c d hends =>
    have hbound : c.result.length ≤ 11 * len := by
      have hmul : (c.jumps + 1) * len ≤ 11 * len := Nat.mul_le_mul_right len (by omega)
      omega
    cases hends <;> exact hbound
  | turn hturns _ ih => exact ih (hturns.bounded hc)

/-- **A well-formed name** from `start` on, of labels of at most 63 bytes, and over at `stop`: past
a zero, or past a pointer. -/
inductive NameAt (mem : Memory) (len : Nat) : Nat → Nat → Prop
  | zero {start : Nat} (hin : start < len) (hzero : mem start = 0) :
      NameAt mem len start (start + 1)
  | pointer {start : Nat} (hin : start + 1 < len) (hptr : mem start &&& 0xC0 = 0xC0) :
      NameAt mem len start (start + 2)
  | label {start stop : Nat} (hfits : start + 1 + (mem start).toNat ≤ len) (hpos : mem start ≠ 0)
      (hshort : mem start &&& 0xC0 = 0)
      (hrest : NameAt mem len (start + 1 + (mem start).toNat) stop) : NameAt mem len start stop

/-- The offset to go on at stays, once there is one. -/
theorem NameRun.resume_some {n resume : Nat} (h : NameRun mem len n c d)
    (hc : c.resume = some resume) : d.resume = some resume := by
  have hjump : ∀ c : NameCursor, c.resume = some resume → (c.jump mem).resume = some resume := by
    intro c hc
    show some (c.resume.getD (c.offset + 2)) = some resume
    rw [hc]
    rfl
  induction h with
  | done hends =>
    cases hends with
    | tooMany => exact hjump _ hc
    | outside | halfPointer | zero | truncated => exact hc
  | turn hturns _ ih =>
    cases hturns with
    | pointer => exact ih (hjump _ hc)
    | label => exact ih hc

namespace NameAt
variable {start stop : Nat} (h : NameAt mem len start stop)
include h

theorem inside : start < len := by
  cases h with
  | zero hin => exact hin
  | pointer hin => exact Nat.lt_of_succ_lt hin
  | label hfits => omega

theorem of_pointer (hptr : mem start &&& 0xC0 = 0xC0) : start + 1 < len ∧ stop = start + 2 := by
  cases h with
  | zero _ hzero => exact absurd hptr (zero_plain hzero)
  | pointer hin => exact ⟨hin, rfl⟩
  | label _ _ hshort =>
    rw [hshort] at hptr
    exact absurd hptr (by decide)

theorem of_zero (hzero : mem start = 0) : stop = start + 1 := by
  cases h with
  | zero => rfl
  | pointer _ hptr => exact absurd hptr (zero_plain hzero)
  | label _ hpos => exact absurd hzero hpos

theorem of_label (hplain : mem start &&& 0xC0 ≠ 0xC0) (hpos : mem start ≠ 0) :
    start + 1 + (mem start).toNat ≤ len ∧ NameAt mem len (start + 1 + (mem start).toNat) stop := by
  cases h with
  | zero _ hzero => exact absurd hzero hpos
  | pointer _ hptr => exact absurd hptr hplain
  | label hfits _ _ hrest => exact ⟨hfits, hrest⟩

end NameAt

theorem NameCursor.jump_resume (hc : c.resume = none) :
    (c.jump mem).resume = some (c.offset + 2) := by
  show some (c.resume.getD (c.offset + 2)) = _
  rw [hc]
  rfl

/-- **The offset behind a well-formed name.** -/
theorem NameRun.stop {n stop : Nat} (h : NameRun mem len n c d) (hc : c.resume = none)
    (hname : NameAt mem len c.offset stop) : d.resume.getD d.offset = stop := by
  induction h with
  | done hends =>
    cases hends with
    | outside hout => exact absurd hname.inside (Nat.not_lt.mpr hout)
    | halfPointer _ hptr hout => exact absurd (hname.of_pointer hptr).1 (Nat.not_lt.mpr hout)
    | tooMany _ hptr =>
      rw [NameCursor.jump_resume hc, (hname.of_pointer hptr).2]
      rfl
    | zero _ hzero =>
      rw [hc, hname.of_zero hzero]
      rfl
    | truncated _ hplain hpos hout =>
      exact absurd (hname.of_label hplain hpos).1 (Nat.not_le.mpr hout)
  | turn hturns hrun ih =>
    cases hturns with
    | pointer _ hptr =>
      rw [hrun.resume_some (NameCursor.jump_resume hc), (hname.of_pointer hptr).2]
      rfl
    | label _ hplain hpos => exact ih hc (hname.of_label hplain hpos).2

/-! ## Staying inside -/

theorem within_decodeLoop (mem : Memory) (len fuel : Nat) (c : NameCursor) :
    (decodeLoop mem len fuel c).Within len := by
  induction fuel generalizing c with
  | zero => exact Scan.within_pure _
  | succ fuel ih =>
    rw [decodeLoop]
    refine (Scan.within_ite ..).mpr ⟨fun _ => Scan.within_pure _, fun hin => ?_⟩
    refine (Scan.within_bind ..).mpr ⟨(Scan.within_read ..).mpr (by omega), ?_⟩
    refine (Scan.within_ite ..).mpr ⟨fun _ => ?_, fun _ => ?_⟩
    · refine (Scan.within_ite ..).mpr ⟨fun _ => Scan.within_pure _, fun hwhole => ?_⟩
      refine (Scan.within_bind ..).mpr ⟨(Scan.within_read ..).mpr (by omega), ?_⟩
      exact (Scan.within_ite ..).mpr ⟨fun _ => Scan.within_pure _, fun _ => ih _⟩
    · refine (Scan.within_ite ..).mpr ⟨fun _ => Scan.within_pure _, fun _ => ?_⟩
      refine (Scan.within_ite ..).mpr ⟨fun _ => Scan.within_pure _, fun hfits => ?_⟩
      exact (Scan.within_bind ..).mpr ⟨Scan.within_readRange _ _ _ (Nat.le_of_not_lt hfits), ih _⟩

theorem within_decodeName (mem : Memory) (len offset : Nat) :
    (decodeName mem len offset).Within len :=
  (Scan.within_bind ..).mpr ⟨within_decodeLoop .., Scan.within_pure _⟩

theorem within_skipQuestions (mem : Memory) (len n offset : Nat) :
    (skipQuestions mem len n offset).Within len := by
  induction n generalizing offset with
  | zero => exact Scan.within_pure _
  | succ n ih =>
    rw [skipQuestions]
    refine (Scan.within_ite ..).mpr ⟨fun _ => Scan.within_pure _, fun _ => ?_⟩
    exact (Scan.within_bind ..).mpr ⟨within_decodeName .., ih _⟩

theorem within_recordData {offset rdlength : Nat} (type : UInt16) (h : offset + rdlength ≤ len) :
    (recordData mem len offset type rdlength).Within len := by
  refine (Scan.within_ite ..).mpr ⟨fun hipv4 => ?_, fun _ => ?_⟩
  · exact (Scan.within_map ..).mpr (within_net32.mpr (by omega))
  · refine (Scan.within_ite ..).mpr ⟨fun _ => ?_, fun _ => ?_⟩
    · exact (Scan.within_bind ..).mpr ⟨within_decodeName .., Scan.within_pure _⟩
    · exact (Scan.within_map ..).mpr (Scan.within_readRange _ _ _ h)

theorem within_answers (mem : Memory) (len n offset : Nat) :
    (answers mem len n offset).Within len := by
  induction n generalizing offset with
  | zero => exact Scan.within_pure _
  | succ n ih =>
    rw [answers]
    refine (Scan.within_ite ..).mpr ⟨fun _ => Scan.within_pure _, fun _ => ?_⟩
    refine (Scan.within_bind ..).mpr ⟨within_decodeName .., ?_⟩
    refine (Scan.within_ite ..).mpr ⟨fun _ => Scan.within_pure _, fun hfixed => ?_⟩
    refine (Scan.within_bind ..).mpr ⟨within_net16.mpr (by omega), ?_⟩
    refine (Scan.within_bind ..).mpr ⟨within_net16.mpr (by omega), ?_⟩
    refine (Scan.within_bind ..).mpr ⟨within_net32.mpr (by omega), ?_⟩
    refine (Scan.within_bind ..).mpr ⟨within_net16.mpr (by omega), ?_⟩
    refine (Scan.within_ite ..).mpr ⟨fun _ => Scan.within_pure _, fun hdata => ?_⟩
    refine (Scan.within_bind ..).mpr ⟨within_recordData _ (Nat.le_of_not_lt hdata), ?_⟩
    exact (Scan.within_bind ..).mpr ⟨ih _, Scan.within_pure _⟩

theorem within_parseResponse (mem : Memory) (len : Nat) : (parseResponse mem len).Within len := by
  refine (Scan.within_ite ..).mpr ⟨fun _ => Scan.within_pure _, fun hheader => ?_⟩
  rw [headerSize] at hheader
  refine (Scan.within_bind ..).mpr ⟨within_net16.mpr (by omega), ?_⟩
  refine (Scan.within_bind ..).mpr ⟨within_net16.mpr (by omega), ?_⟩
  refine (Scan.within_ite ..).mpr ⟨fun _ => Scan.within_pure _, fun _ => ?_⟩
  refine (Scan.within_bind ..).mpr ⟨within_net16.mpr (by omega), ?_⟩
  refine (Scan.within_bind ..).mpr ⟨within_net16.mpr (by omega), ?_⟩
  refine (Scan.within_bind ..).mpr ⟨within_skipQuestions .., ?_⟩
  exact (Scan.within_bind ..).mpr ⟨within_answers .., Scan.within_pure _⟩

/-! ## Records -/

/-- **A record in the message**: its ten fixed bytes at `offset`, and its data behind them. -/
structure RecordAt (mem : Memory) (len offset : Nat) (r : DNSRecord) : Prop where
  fixed : offset + 10 ≤ len
  type : r.type = (net16 mem offset).value
  cls : r.cls = (net16 mem (offset + 2)).value
  ttl : r.ttl = (net32 mem (offset + 4)).value
  rdata : offset + 10 + (net16 mem (offset + 8)).value.toNat ≤ len
  data : r.data = (recordData mem len (offset + 10) r.type
    (net16 mem (offset + 8)).value.toNat).value

/-- The record whose fixed bytes are at `offset`. -/
def recordAt (mem : Memory) (len : Nat) (name : List UInt8) (offset : Nat) : DNSRecord where
  name := name
  type := (net16 mem offset).value
  cls := (net16 mem (offset + 2)).value
  ttl := (net32 mem (offset + 4)).value
  data := (recordData mem len (offset + 10) (net16 mem offset).value
    (net16 mem (offset + 8)).value.toNat).value

/-- What a round of the answers computes. -/
theorem answers_value (mem : Memory) (len n offset : Nat) :
    (answers mem len (n + 1) offset).value =
      if len ≤ offset then [] else
      let name := (decodeName mem len offset).value
      let rdlength := (net16 mem (name.2 + 8)).value.toNat
      if len < name.2 + 10 then [] else
      if len < name.2 + 10 + rdlength then [] else
      recordAt mem len name.1 name.2 :: (answers mem len n (name.2 + 10 + rdlength)).value := by
  rw [answers, Scan.value_ite]
  refine ite_congr rfl (fun _ => rfl) fun _ => ?_
  rw [Scan.value_bind]
  generalize (decodeName mem len offset).value = named
  obtain ⟨name, offset⟩ := named
  rw [Scan.value_ite]
  refine ite_congr rfl (fun _ => rfl) fun _ => ?_
  rw [Scan.value_bind, Scan.value_bind, Scan.value_bind, Scan.value_bind, Scan.value_ite]
  refine ite_congr rfl (fun _ => rfl) fun _ => ?_
  rfl

theorem answers_at (mem : Memory) (len n offset : Nat) :
    (answers mem len n offset).value.length ≤ n ∧
      ∀ r ∈ (answers mem len n offset).value, ∃ offset, RecordAt mem len offset r := by
  induction n generalizing offset with
  | zero => exact ⟨Nat.le_refl 0, fun r hr => absurd hr List.not_mem_nil⟩
  | succ n ih =>
    have hnone : ([] : List DNSRecord).length ≤ n + 1 ∧
        ∀ r ∈ ([] : List DNSRecord), ∃ offset, RecordAt mem len offset r :=
      ⟨Nat.zero_le _, fun r hr => absurd hr List.not_mem_nil⟩
    rw [answers_value]
    dsimp only
    generalize (decodeName mem len offset).value = named
    split
    · exact hnone
    split
    · exact hnone
    split
    · exact hnone
    rename_i _ hfixed hrdata
    obtain ⟨hlength, hrest⟩ := ih (named.2 + 10 + (net16 mem (named.2 + 8)).value.toNat)
    refine ⟨Nat.succ_le_succ hlength, fun r hr => ?_⟩
    rcases List.mem_cons.mp hr with rfl | hr
    · exact ⟨named.2, Nat.le_of_not_lt hfixed, rfl, rfl, rfl, Nat.le_of_not_lt hrdata, rfl⟩
    · exact hrest r hr

/-- The answers of a response that is returned. -/
theorem parseResponse_eq_some {response : DNSResponse}
    (h : (parseResponse mem len).value = some response) : ∃ offset, response.answers =
      (answers mem len (net16 mem 6).value.toNat offset).value := by
  rw [parseResponse, Scan.value_ite] at h
  split at h
  · cases h
  rw [Scan.value_bind, Scan.value_bind, Scan.value_ite] at h
  split at h
  · cases h
  obtain rfl := Option.some.inj h
  exact ⟨_, rfl⟩

/-- **Parsing any response.**  The parser reads nothing outside the message; `decode_name` ends,
after at most eleven pointers, with a name of at most eleven times the length of the message, and
behind the name it started at if that is well formed; and the answers are at most as many as the
header says, each with all its bytes in the message. -/
theorem parseResponse_safe (mem : Memory) (len : Nat) : (parseResponse mem len).Within len ∧
    (∀ offset, ∃ n c, n ≤ 11 * (len + 1) ∧ NameRun mem len n { offset } c ∧ c.jumps ≤ 11 ∧
      (∀ fuel, n ≤ fuel → (decodeLoop mem len fuel { offset }).value = c) ∧
      (decodeName mem len offset).value.1.length ≤ 11 * len ∧
      ∀ stop, NameAt mem len offset stop → (decodeName mem len offset).value.2 = stop) ∧
    ∀ response, (parseResponse mem len).value = some response →
      response.answers.length ≤ (net16 mem 6).value.toNat ∧
        ∀ r ∈ response.answers, ∃ offset, RecordAt mem len offset r := by
  refine ⟨within_parseResponse mem len, fun offset => ?_, fun response h => ?_⟩
  · obtain ⟨n, c, hn, hrun, hvalue⟩ := decodeLoop_run mem len offset
    rw [hrun.decodeName_eq]
    refine ⟨n, c, hn, hrun, hrun.jumps_le (Nat.zero_le 10), hvalue, ?_, fun _ => hrun.stop rfl⟩
    refine hrun.length_le ⟨Nat.zero_le 10, ?_⟩
    show 0 + (len - offset) ≤ (0 + 1) * len
    omega
  · obtain ⟨offset, hanswers⟩ := parseResponse_eq_some h
    rw [hanswers]
    exact answers_at mem len _ offset

end DNSMessages
end NeuStack
